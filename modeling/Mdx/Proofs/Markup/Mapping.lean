import Mathlib.Tactic.IntervalCases
import Mdx.Markup.Basic
import Mdx.Proofs.Fault.Result
import Mdx.Proofs.Module.Renderable

/-!
# Mapping a document to markup

Each function of the mapping is described by what it does to a node's head and children
(`ofNode_wrapped`, `ofItems_cons` and so on), a leaf counting as a node without children.  Two facts
follow by induction.

* A node maps exactly if its head has a shape, its children map, and a table has rows and a row has
  cells (`exists_ofNode_iff`).  Whether a list is tight does not matter for that.
* The markup of a node is renderable, and the embedded elements in it are those at which the mapping
  stops (`Outer.renderable`).
-/

namespace Mdx.Markup

open Mdx.Module (Renderable TagSound plainKinds)
open Mdx.Node (flattenStack mem_flatten mem_flattenStack)

/-! ### Shapes -/

/-- The kind that the children of a table and of a row have. -/
def childKind? (kind : String) : Option String :=
  match kind with
  | "table" => some "tableRow"
  | "tableRow" => some "tableCell"
  | _ => none

/-- The kinds of nodes that become an element around their children. -/
def wrappedKinds : List String :=
  ["paragraph", "blockquote", "thematicBreak", "emphasis", "strong", "delete", "break", "heading",
   "link", "tableCell"]

/-- What the kind of a node is if it has this shape. -/
def Shape.Fits (kind : String) : Shape → Prop
  | .kept => kind ∈ Vocabulary.special
  | .text => kind = "text" ∨ kind = "inlineCode"
  | .code => kind = "code"
  | .image => kind = "image"
  | .wrapped tag _ => kind ∈ wrappedKinds ∧ TagSound tag
  | .list tag _ _ => kind = "list" ∧ TagSound tag
  | .item _ => kind = "listItem"
  | .table _ => kind = "table"
  | .row => kind = "tableRow"

theorem tagSound_headingTag {h : NodeHead} {tag : String} (ht : headingTag h = .ok tag) :
    TagSound tag := by
  unfold headingTag at ht
  split at ht
  · cases ht
  next depth hdepth =>
    split at ht
    next hrange =>
      cases ht
      obtain ⟨hlow, hhigh⟩ := hrange
      interval_cases depth <;> exact ⟨by decide, by decide⟩
    · cases ht

theorem tagSound_listTag (h : NodeHead) : TagSound (listTag h) := by
  rw [listTag]
  split <;> exact ⟨by decide, by decide⟩

theorem simpleTag?_fits {kind tag : String} (h : simpleTag? kind = some tag) :
    (Shape.wrapped tag []).Fits kind := by
  unfold simpleTag? at h
  split at h <;> cases h <;> exact ⟨by decide, by decide, by decide⟩

/-- **A shape tells the kind.** -/
theorem fits_of_shapeOf {h : NodeHead} {s : Shape} (hs : shapeOf h = .ok s) : s.Fits h.kind := by
  unfold shapeOf at hs
  split at hs
  next hspecial =>
    cases hs
    exact List.contains_iff_mem.mp hspecial
  next hspecial =>
    split at hs
    next tag htag =>
      cases hs
      exact simpleTag?_fits htag
    next hsimple =>
      split at hs
      next hk => cases hs; exact .inl hk
      next hk => cases hs; exact .inr hk
      next hk =>
        obtain ⟨tag, htag, rfl⟩ := exists_ok_of_map hs
        rw [hk]
        exact ⟨by decide, tagSound_headingTag htag⟩
      next hk => cases hs; exact ⟨hk, tagSound_listTag h⟩
      next hk => cases hs; exact hk
      next hk => cases hs; exact hk
      next hk =>
        cases hs
        rw [hk]
        exact ⟨by decide, by decide, by decide⟩
      next hk => cases hs; exact hk
      next hk =>
        obtain ⟨aligns, -, rfl⟩ := exists_ok_of_map hs
        exact hk
      next hk => cases hs; exact hk
      next hk =>
        cases hs
        rw [hk]
        exact ⟨by decide, by decide, by decide⟩
      · cases hs

theorem kind_mem_extended {h : NodeHead} {s : Shape} (hs : shapeOf h = .ok s) :
    h.kind ∈ Vocabulary.extended := by
  have hf := fits_of_shapeOf hs
  have hspecial : ∀ kind ∈ Vocabulary.special, kind ∈ Vocabulary.extended := by decide
  have hwrapped : ∀ kind ∈ wrappedKinds, kind ∈ Vocabulary.extended := by decide
  cases s with
  | kept => exact hspecial h.kind hf
  | text => rcases hf with hk | hk <;> rw [hk] <;> decide
  | wrapped tag properties => exact hwrapped h.kind hf.1
  | list tag properties tight => rw [hf.1]; decide
  | code | image | item tight | table aligns | row =>
    rw [show h.kind = _ from hf]
    decide

/-! ### One node -/

section OfNode

variable {n : Node}

theorem ofNode_error {e : Failure} (h : shapeOf n.head = .error e) : ofNode n = .error e := by
  cases n with
  | leaf head =>
    have h' : shapeOf head = .error e := h
    rw [ofNode, h']
    rfl
  | branch head cs =>
    have h' : shapeOf head = .error e := h
    rw [ofNode, h']

theorem ofNode_kept (h : shapeOf n.head = .ok .kept) : ofNode n = .ok n := by
  cases n with
  | leaf head =>
    have h' : shapeOf head = .ok .kept := h
    rw [ofNode, h']
    rfl
  | branch head cs =>
    have h' : shapeOf head = .ok .kept := h
    rw [ofNode, h']

/-- The markup of the children of a node with a shape. -/
def contents (cs : List Node) : Shape → Except Failure (List Node)
  | .wrapped _ _ => ofNodes cs
  | .list _ _ tight => ofItems tight cs
  | .item tight => ofContents tight cs
  | .table aligns => ofRows "th" aligns cs
  | .row => ofCells "td" [] cs
  | .kept | .text | .code | .image => .ok []

theorem contents_nil (s : Shape) : contents [] s = .ok [] := by
  cases s with
  | kept | text | code | image => rfl
  | wrapped tag properties => rw [contents, ofNodes]
  | list tag properties tight => rw [contents, ofItems]
  | item tight => rw [contents, ofContents]
  | table aligns => rw [contents, ofRows]
  | row => rw [contents, ofCells]

/-- **The markup of a node is assembled from that of its children.** -/
theorem ofNode_eq {s : Shape} (h : shapeOf n.head = .ok s) (hs : s ≠ .kept) :
    ofNode n = (contents n.children s).map fun ms => assemble n.head ms s := by
  cases n with
  | leaf head =>
    have h' : shapeOf head = .ok s := h
    rw [ofNode, h', Node.children, contents_nil]
    rfl
  | branch head cs =>
    have h' : shapeOf head = .ok s := h
    rw [ofNode, h']
    cases s with
    | kept => exact absurd rfl hs
    | text | code | image => rfl
    | wrapped tag properties => rfl
    | list tag properties tight => rfl
    | item tight => rfl
    | table aligns => rfl
    | row => rfl

end OfNode

/-! ### Lists of nodes -/

theorem joined_eq_ok_iff {first rest : Except Failure (List Node)} {out : List Node} :
    joined first rest = .ok out ↔
      ∃ xs ys : List Node, first = .ok xs ∧ rest = .ok ys ∧ out = xs ++ ys := by
  cases first with
  | error e => simp [joined]
  | ok xs =>
    cases rest with
    | error e => simp [joined]
    | ok ys => simp [joined, eq_comm]

/-- An item of a list; the list says whether it is tight. -/
def ofItem (tight : Bool) (n : Node) : Except Failure (List Node) :=
  if n.kind = "listItem" then (ofContents tight n.children).map fun cs => [elementFor n.head "li" [] cs]
  else (ofNode n).map ([·])

/-- A child of an item; in a tight item, a paragraph gives way to its children. -/
def ofContent (tight : Bool) (n : Node) : Except Failure (List Node) :=
  if tight && n.kind = "paragraph" then ofNodes n.children else (ofNode n).map ([·])

theorem ofItems_cons (tight : Bool) (n : Node) (rest : List Node) :
    ofItems tight (n :: rest) = joined (ofItem tight n) (ofItems tight rest) := by
  cases n with
  | leaf h =>
    rw [ofItems, ofItem, Node.children, ofContents]
    rfl
  | branch h cs =>
    rw [ofItems]
    rfl

theorem ofContents_cons (tight : Bool) (n : Node) (rest : List Node) :
    ofContents tight (n :: rest) = joined (ofContent tight n) (ofContents tight rest) := by
  cases n with
  | leaf h =>
    rw [ofContents, ofContent, Node.children, ofNodes]
    rfl
  | branch h cs =>
    rw [ofContents]
    rfl

theorem ofRow_eq (tag : String) (aligns : List Json) (n : Node) :
    ofRow tag aligns n =
      if n.kind = "tableRow" then (ofCells tag aligns n.children).map (elementFor n.head "tr" [])
      else .error (.structural ⟨.rowExpected n.kind, n.position⟩) := by
  cases n with
  | leaf h =>
    rw [ofRow, Node.children, ofCells]
    rfl
  | branch h cs =>
    rw [ofRow]
    rfl

theorem ofCell_eq (tag : String) (aligns : List Json) (n : Node) :
    ofCell tag aligns n =
      if n.kind = "tableCell" then
        (ofNodes n.children).map (elementFor n.head tag (cellProperties aligns))
      else .error (.structural ⟨.cellExpected n.kind, n.position⟩) := by
  cases n with
  | leaf h =>
    rw [ofCell, Node.children, ofNodes]
    rfl
  | branch h cs =>
    rw [ofCell]
    rfl

/-! ### Which nodes map -/

theorem isOk_joined (first rest : Except Failure (List Node)) :
    (joined first rest).isOk = (first.isOk && rest.isOk) := by
  cases first <;> cases rest <;> rfl

theorem isOk_ofNodes (cs : List Node) : (ofNodes cs).isOk = cs.all fun c => (ofNode c).isOk := by
  induction cs with
  | nil => rw [ofNodes]; rfl
  | cons c rest ih => rw [ofNodes, isOk_joined, isOk_map, ih, List.all_cons]

theorem shapeOf_paragraph {h : NodeHead} (hk : h.kind = "paragraph") :
    shapeOf h = .ok (.wrapped "p" []) := by
  simp [shapeOf, simpleTag?, hk, Vocabulary.special]

theorem shapeOf_listItem {h : NodeHead} (hk : h.kind = "listItem") :
    shapeOf h = .ok (.item (isTight h)) := by
  simp [shapeOf, simpleTag?, hk, Vocabulary.special]

theorem shapeOf_tableRow {h : NodeHead} (hk : h.kind = "tableRow") : shapeOf h = .ok .row := by
  simp [shapeOf, simpleTag?, hk, Vocabulary.special]

theorem shapeOf_tableCell {h : NodeHead} (hk : h.kind = "tableCell") :
    shapeOf h = .ok (.wrapped "td" []) := by
  simp [shapeOf, simpleTag?, hk, Vocabulary.special]

/-- The contents of an item map if its children do, in a tight item and in any other. -/
theorem isOk_ofContents (tight : Bool) (cs : List Node) :
    (ofContents tight cs).isOk = cs.all fun c => (ofNode c).isOk := by
  induction cs with
  | nil => rw [ofContents]; rfl
  | cons c rest ih =>
    have hc : (ofContent tight c).isOk = (ofNode c).isOk := by
      rw [ofContent]
      split
      next hp =>
        have hk : c.kind = "paragraph" := of_decide_eq_true (Bool.and_eq_true_iff.mp hp).2
        rw [ofNode_eq (shapeOf_paragraph hk) nofun, isOk_map, contents]
      · rw [isOk_map]
    rw [ofContents_cons, isOk_joined, hc, ih, List.all_cons]

theorem isOk_ofItems (tight : Bool) (cs : List Node) :
    (ofItems tight cs).isOk = cs.all fun c => (ofNode c).isOk := by
  induction cs with
  | nil => rw [ofItems]; rfl
  | cons c rest ih =>
    have hc : (ofItem tight c).isOk = (ofNode c).isOk := by
      rw [ofItem]
      split
      next hk =>
        rw [ofNode_eq (shapeOf_listItem hk) nofun, isOk_map, isOk_map, contents, isOk_ofContents,
          isOk_ofContents]
      · rw [isOk_map]
    rw [ofItems_cons, isOk_joined, hc, ih, List.all_cons]

theorem isOk_ofCells (tag : String) (aligns : List Json) (cs : List Node) :
    (ofCells tag aligns cs).isOk = cs.all fun c => c.kind == "tableCell" && (ofNode c).isOk := by
  induction cs generalizing aligns with
  | nil => rw [ofCells]; rfl
  | cons c rest ih =>
    have hc : (ofCell tag aligns c).isOk = (c.kind == "tableCell" && (ofNode c).isOk) := by
      rw [ofCell_eq]
      split
      next hk =>
        rw [ofNode_eq (shapeOf_tableCell hk) nofun, isOk_map, isOk_map, contents, hk]
        rfl
      next hk => rw [beq_eq_false_iff_ne.mpr hk]; rfl
    rw [ofCells, isOk_joined, isOk_map, hc, ih, List.all_cons]

theorem isOk_ofRows (tag : String) (aligns : List Json) (cs : List Node) :
    (ofRows tag aligns cs).isOk = cs.all fun c => c.kind == "tableRow" && (ofNode c).isOk := by
  induction cs generalizing tag with
  | nil => rw [ofRows]; rfl
  | cons c rest ih =>
    have hc : (ofRow tag aligns c).isOk = (c.kind == "tableRow" && (ofNode c).isOk) := by
      rw [ofRow_eq]
      split
      next hk =>
        rw [ofNode_eq (shapeOf_tableRow hk) nofun, isOk_map, isOk_map, contents, isOk_ofCells,
          isOk_ofCells, hk]
        rfl
      next hk => rw [beq_eq_false_iff_ne.mpr hk]; rfl
    rw [ofRows, isOk_joined, isOk_map, hc, ih, List.all_cons]

/-- Whether the children of a node with this shape are looked at. -/
def Shape.descends : Shape → Bool
  | .kept | .text | .code | .image => false
  | .wrapped _ _ | .list _ _ _ | .item _ | .table _ | .row => true

/-- Whether a child is of the kind that a node of this kind asks for. -/
def admits (kind : String) (c : Node) : Bool :=
  (childKind? kind).all (c.kind == ·)

theorem isOk_contents {kind : String} {s : Shape} (hf : s.Fits kind) (cs : List Node) :
    (contents cs s).isOk = (!s.descends || cs.all fun c => admits kind c && (ofNode c).isOk) := by
  cases s with
  | kept | text | code | image => rfl
  | wrapped tag properties =>
    have hall : ∀ kind ∈ wrappedKinds, childKind? kind = none := by decide
    have hnone : childKind? kind = none := hall kind hf.1
    simp [contents, isOk_ofNodes, Shape.descends, admits, hnone]
  | list tag properties tight =>
    have hk : kind = "list" := hf.1
    simp [contents, isOk_ofItems, Shape.descends, admits, hk, childKind?]
  | item tight =>
    have hk : kind = "listItem" := hf
    simp [contents, isOk_ofContents, Shape.descends, admits, hk, childKind?]
  | table aligns =>
    have hk : kind = "table" := hf
    simp [contents, isOk_ofRows, Shape.descends, admits, hk, childKind?]
  | row =>
    have hk : kind = "tableRow" := hf
    simp [contents, isOk_ofCells, Shape.descends, admits, hk, childKind?]

/-- **A node maps exactly if its head has a shape and its children, where they are looked at, are
admitted and map.** -/
theorem isOk_ofNode_iff {n : Node} :
    (ofNode n).isOk = true ↔ ∃ s : Shape, shapeOf n.head = .ok s ∧
      (s.descends = true → ∀ c ∈ n.children, admits n.kind c = true ∧ (ofNode c).isOk = true) := by
  cases hs : shapeOf n.head with
  | error e =>
    rw [ofNode_error hs]
    simp [Except.isOk, Except.toBool]
  | ok s =>
    simp only [Except.ok.injEq, exists_eq_left']
    by_cases hkept : s = .kept
    · subst hkept
      rw [ofNode_kept hs]
      simp [Except.isOk, Except.toBool, Shape.descends]
    · rw [ofNode_eq hs hkept, isOk_map, isOk_contents (fits_of_shapeOf hs)]
      simp only [Bool.or_eq_true, Bool.not_eq_true', List.all_eq_true, Bool.and_eq_true]
      cases s.descends <;> simp [Node.kind]

/-- A node that maps if its children do, unless it is raw markup: its head has a shape, and a table has
rows and a row has cells. -/
structure Regular (n : Node) : Prop where
  shape : n.kind = "html" ∨ ∃ s : Shape, shapeOf n.head = .ok s
  admitted : ∀ c ∈ n.children, admits n.kind c = true

/-- The kinds of nodes that are regular whatever they hold. -/
def freeKinds : List String :=
  ["html", "paragraph", "thematicBreak", "blockquote", "list", "listItem", "code", "tableCell", "text",
   "emphasis", "strong", "delete", "inlineCode", "break", "link", "image"] ++ Vocabulary.special

theorem regular_of_free {n : Node} (hk : n.kind ∈ freeKinds) : Regular n := by
  constructor
  · show n.head.kind = "html" ∨ _
    replace hk : n.head.kind ∈ freeKinds := hk
    simp only [freeKinds, Vocabulary.special, List.cons_append, List.nil_append, List.mem_cons,
      List.not_mem_nil, or_false] at hk
    rcases hk with hk | hk | hk | hk | hk | hk | hk | hk | hk | hk | hk | hk | hk | hk | hk | hk | hk |
      hk | hk <;> simp [shapeOf, simpleTag?, hk, Vocabulary.special]
  · intro c _
    have hnone : ∀ kind ∈ freeKinds, childKind? kind = none := by decide
    rw [admits, hnone n.kind hk]
    rfl

theorem isOk_of_regular {n : Node} (h : ∀ x ∈ n.flatten, Regular x ∧ x.kind ≠ "html") :
    (ofNode n).isOk = true := by
  induction n using Node.induction with
  | step n ih =>
    obtain ⟨⟨hshape, hadmitted⟩, hne⟩ := h n (mem_flatten.mpr (.inl rfl))
    obtain ⟨s, hs⟩ := hshape.resolve_left hne
    refine isOk_ofNode_iff.mpr ⟨s, hs, fun _ c hc => ⟨hadmitted c hc, ih c hc fun x hx => ?_⟩⟩
    exact h x (mem_flatten.mpr (.inr ⟨c, hc, hx⟩))

/-! ### What the markup of a node is made of -/

/-- A node in which there are no statements, and whose outermost embedded elements satisfy `P`. -/
inductive Outer (P : Node → Prop) : Node → Prop
  | stop {n : Node} (hk : n.kind = "jsx") (hp : P n) : Outer P n
  | go {n : Node} (hk : n.kind ∉ Vocabulary.special) (hc : ∀ c ∈ n.children, Outer P c) : Outer P n

/-- If there are nodes, all of them have the property. -/
def Yields (W : Node → Prop) (result : Except Failure (List Node)) : Prop :=
  ∀ ms : List Node, result = .ok ms → ∀ m ∈ ms, W m

section Yields

variable {W : Node → Prop}

theorem yields_nil : Yields W (.ok []) := by
  intro ms h m hm
  cases h
  cases hm

theorem Yields.joined {first rest : Except Failure (List Node)} (hf : Yields W first)
    (hr : Yields W rest) : Yields W (joined first rest) := by
  intro ms h m hm
  obtain ⟨xs, ys, hxs, hys, rfl⟩ := joined_eq_ok_iff.mp h
  exact (List.mem_append.mp hm).elim (hf xs hxs m) (hr ys hys m)

theorem yields_singleton {result : Except Failure Node} (h : ∀ m : Node, result = .ok m → W m) :
    Yields W (result.map ([·])) := by
  intro ms hms m hm
  obtain ⟨a, ha, rfl⟩ := exists_ok_of_map hms
  rw [List.mem_singleton.mp hm]
  exact h a ha

end Yields

section Renderable

variable {P : Node → Prop}

theorem renderable_elementFor {h : NodeHead} {tag : String} {properties : Json.Members}
    {children : List Node} (ht : TagSound tag) (hc : ∀ c ∈ children, Renderable P c) :
    Renderable P (elementFor h tag properties children) :=
  .element rfl rfl ht hc

theorem renderable_tableSections {rows : List Node} (h : ∀ r ∈ rows, Renderable P r) :
    ∀ s ∈ tableSections rows, Renderable P s := by
  have hsection : ∀ (tag : String) (rs : List Node), TagSound tag → (∀ r ∈ rs, Renderable P r) →
      Renderable P (Node.element tag [] none rs) :=
    fun tag rs ht hrs => .element rfl rfl ht hrs
  have hhead : TagSound "thead" := ⟨by decide, by decide⟩
  have hbody : TagSound "tbody" := ⟨by decide, by decide⟩
  unfold tableSections
  split
  · simp
  · simpa using hsection "thead" _ hhead h
  next first rest _ =>
    obtain ⟨hfirst, hrest⟩ := List.forall_mem_cons.mp h
    refine List.forall_mem_cons.mpr ⟨hsection _ _ hhead (by simpa using hfirst), ?_⟩
    simpa using hsection _ _ hbody hrest

/-- The markup of every node below these is renderable.  This is what the induction over trees gives for
the children of a node. -/
def Below (P : Node → Prop) (cs : List Node) : Prop :=
  ∀ x ∈ flattenStack cs, Outer P x → ∀ m : Node, ofNode x = .ok m → Renderable P m

theorem Below.of_mem {cs : List Node} (hb : Below P cs) {c : Node} (hc : c ∈ cs) (ho : Outer P c) :
    ∀ m : Node, ofNode c = .ok m → Renderable P m :=
  hb c (mem_flattenStack.mpr ⟨c, hc, mem_flatten.mpr (.inl rfl)⟩) ho

theorem Below.children {cs : List Node} (hb : Below P cs) {c : Node} (hc : c ∈ cs) :
    Below P c.children := by
  intro x hx
  obtain ⟨d, hd, hxd⟩ := mem_flattenStack.mp hx
  exact hb x (mem_flattenStack.mpr ⟨c, hc, mem_flatten.mpr (.inr ⟨d, hd, hxd⟩)⟩)

theorem Below.tail {c : Node} {rest : List Node} (hb : Below P (c :: rest)) : Below P rest := by
  intro x hx
  obtain ⟨d, hd, hxd⟩ := mem_flattenStack.mp hx
  exact hb x (mem_flattenStack.mpr ⟨d, List.mem_cons_of_mem c hd, hxd⟩)

theorem Outer.children {c : Node} (h : Outer P c) (hk : c.kind ≠ "jsx") :
    ∀ x ∈ c.children, Outer P x := by
  cases h with
  | stop hk' _ => exact absurd hk' hk
  | go _ hc => exact hc

theorem yields_ofNodes {cs : List Node} (hb : Below P cs) (ho : ∀ c ∈ cs, Outer P c) :
    Yields (Renderable P) (ofNodes cs) := by
  induction cs with
  | nil =>
    rw [ofNodes]
    exact yields_nil
  | cons c rest ih =>
    obtain ⟨hc, hrest⟩ := List.forall_mem_cons.mp ho
    rw [ofNodes]
    exact (yields_singleton (hb.of_mem List.mem_cons_self hc)).joined (ih hb.tail hrest)

theorem yields_ofContents {tight : Bool} {cs : List Node} (hb : Below P cs)
    (ho : ∀ c ∈ cs, Outer P c) : Yields (Renderable P) (ofContents tight cs) := by
  induction cs with
  | nil =>
    rw [ofContents]
    exact yields_nil
  | cons c rest ih =>
    obtain ⟨hc, hrest⟩ := List.forall_mem_cons.mp ho
    rw [ofContents_cons]
    refine Yields.joined ?_ (ih hb.tail hrest)
    rw [ofContent]
    split
    next htight =>
      have hk : c.kind = "paragraph" := of_decide_eq_true (Bool.and_eq_true_iff.mp htight).2
      exact yields_ofNodes (hb.children List.mem_cons_self) (hc.children (by rw [hk]; decide))
    · exact yields_singleton (hb.of_mem List.mem_cons_self hc)

theorem yields_ofItems {tight : Bool} {cs : List Node} (hb : Below P cs)
    (ho : ∀ c ∈ cs, Outer P c) : Yields (Renderable P) (ofItems tight cs) := by
  induction cs with
  | nil =>
    rw [ofItems]
    exact yields_nil
  | cons c rest ih =>
    obtain ⟨hc, hrest⟩ := List.forall_mem_cons.mp ho
    rw [ofItems_cons]
    refine Yields.joined ?_ (ih hb.tail hrest)
    rw [ofItem]
    split
    next hk =>
      intro ms hms m hm
      obtain ⟨cs', hcs', rfl⟩ := exists_ok_of_map hms
      rw [List.mem_singleton.mp hm]
      refine renderable_elementFor ⟨by decide, by decide⟩ ?_
      exact yields_ofContents (hb.children List.mem_cons_self) (hc.children (by rw [hk]; decide))
        cs' hcs'
    · exact yields_singleton (hb.of_mem List.mem_cons_self hc)

theorem yields_ofCells {tag : String} {aligns : List Json} {cs : List Node} (ht : TagSound tag)
    (hb : Below P cs) (ho : ∀ c ∈ cs, Outer P c) :
    Yields (Renderable P) (ofCells tag aligns cs) := by
  induction cs generalizing aligns with
  | nil =>
    rw [ofCells]
    exact yields_nil
  | cons c rest ih =>
    obtain ⟨hc, hrest⟩ := List.forall_mem_cons.mp ho
    rw [ofCells]
    refine Yields.joined (yields_singleton fun m hm => ?_) (ih hb.tail hrest)
    rw [ofCell_eq] at hm
    split at hm
    next hk =>
      obtain ⟨ms, hms, rfl⟩ := exists_ok_of_map hm
      refine renderable_elementFor ht ?_
      exact yields_ofNodes (hb.children List.mem_cons_self) (hc.children (by rw [hk]; decide)) ms hms
    · cases hm

theorem yields_ofRows {tag : String} {aligns : List Json} {cs : List Node} (ht : TagSound tag)
    (hb : Below P cs) (ho : ∀ c ∈ cs, Outer P c) :
    Yields (Renderable P) (ofRows tag aligns cs) := by
  induction cs generalizing tag with
  | nil =>
    rw [ofRows]
    exact yields_nil
  | cons c rest ih =>
    obtain ⟨hc, hrest⟩ := List.forall_mem_cons.mp ho
    rw [ofRows]
    refine Yields.joined (yields_singleton fun m hm => ?_)
      (ih ⟨by decide, by decide⟩ hb.tail hrest)
    rw [ofRow_eq] at hm
    split at hm
    next hk =>
      obtain ⟨ms, hms, rfl⟩ := exists_ok_of_map hm
      refine renderable_elementFor ⟨by decide, by decide⟩ ?_
      exact yields_ofCells ht (hb.children List.mem_cons_self) (hc.children (by rw [hk]; decide))
        ms hms
    · cases hm

theorem yields_contents {cs : List Node} (hb : Below P cs) (ho : ∀ c ∈ cs, Outer P c) (s : Shape) :
    Yields (Renderable P) (contents cs s) := by
  cases s with
  | kept | text | code | image => exact yields_nil
  | wrapped tag properties => exact yields_ofNodes hb ho
  | list tag properties tight => exact yields_ofItems hb ho
  | item tight => exact yields_ofContents hb ho
  | table aligns => exact yields_ofRows ⟨by decide, by decide⟩ hb ho
  | row => exact yields_ofCells ⟨by decide, by decide⟩ hb ho

variable (hP : ∀ h : NodeHead, h.kind = "text" ∨ h.kind = "inlineCode" → P (.leaf h))

include hP

theorem renderable_textLeaf {kind : String} {position : Option Position} {h : NodeHead}
    (hk : kind = "text" ∨ kind = "inlineCode") : Renderable P (textLeaf kind position h) := by
  have hplain : kind ∈ plainKinds := by rcases hk with rfl | rfl <;> decide
  rw [textLeaf]
  split <;> exact .plain hplain (hP _ hk)

theorem renderable_assemble {h : NodeHead} {ms : List Node} {s : Shape} (hs : s ≠ .kept)
    (hf : s.Fits h.kind) (hms : ∀ m ∈ ms, Renderable P m) : Renderable P (assemble h ms s) := by
  cases s with
  | kept => exact absurd rfl hs
  | text => exact renderable_textLeaf hP hf
  | code =>
    have htext : Renderable P (textLeaf "text" none h) := renderable_textLeaf hP (.inl rfl)
    have hcode : Renderable P (Node.element "code" (codeProperties h) none [textLeaf "text" none h]) :=
      .element rfl rfl ⟨by decide, by decide⟩ (List.forall_mem_singleton.mpr htext)
    exact renderable_elementFor ⟨by decide, by decide⟩ (List.forall_mem_singleton.mpr hcode)
  | image => exact renderable_elementFor ⟨by decide, by decide⟩ (List.forall_mem_nil _)
  | wrapped tag properties => exact renderable_elementFor hf.2 hms
  | list tag properties tight => exact renderable_elementFor hf.2 hms
  | item tight => exact renderable_elementFor ⟨by decide, by decide⟩ hms
  | table aligns =>
    exact renderable_elementFor ⟨by decide, by decide⟩ (renderable_tableSections hms)
  | row => exact renderable_elementFor ⟨by decide, by decide⟩ hms

/-- **The markup of a node is renderable**, and stops where the mapping does. -/
theorem Outer.renderable {n : Node} (ho : Outer P n) :
    ∀ m : Node, ofNode n = .ok m → Renderable P m := by
  induction n using Node.descendant_induction with
  | step n ih =>
    intro m hm
    cases hs : shapeOf n.head with
    | error e =>
      rw [ofNode_error hs] at hm
      cases hm
    | ok s =>
      have hf : s.Fits n.kind := fits_of_shapeOf hs
      cases ho with
      | stop hk hp =>
        have hkept : s = .kept := by
          rw [hk] at hf
          cases s <;> simp [Shape.Fits, wrappedKinds] at hf ⊢
        subst hkept
        rw [ofNode_kept hs] at hm
        cases hm
        exact .plain (by rw [hk]; decide) hp
      | go hk hc =>
        have hkept : s ≠ .kept := by
          rintro rfl
          exact hk hf
        rw [ofNode_eq hs hkept] at hm
        obtain ⟨ms, hms, rfl⟩ := exists_ok_of_map hm
        exact renderable_assemble hP hkept hf (yields_contents ih hc s ms hms)

end Renderable

/-! ### Trees -/

theorem ofNodes_eq_ok_iff {cs ms : List Node} :
    ofNodes cs = .ok ms ↔ List.Forall₂ (fun c m => ofNode c = .ok m) cs ms := by
  induction cs generalizing ms with
  | nil =>
    rw [ofNodes, List.forall₂_nil_left_iff, Except.ok.injEq]
    exact eq_comm
  | cons c rest ih =>
    rw [ofNodes, joined_eq_ok_iff, List.forall₂_cons_left_iff]
    simp only [← ih]
    constructor
    · rintro ⟨xs, ys, hxs, hys, rfl⟩
      obtain ⟨m, hm, rfl⟩ := exists_ok_of_map hxs
      exact ⟨m, ys, hm, hys, rfl⟩
    · rintro ⟨m, ys, hm, hys, rfl⟩
      exact ⟨[m], ys, by rw [hm]; rfl, hys, rfl⟩

/-- The root of the markup of a tree, with these children. -/
def rootFor (tree : Node) (ms : List Node) : Node :=
  .branch { kind := "root", position := tree.position, props := tree.props } ms

/-- **The markup of a tree**: both trees pass the checks, and the children map one by one. -/
theorem ofExtended_eq_ok_iff {tree m : Node} :
    ofExtended tree = .ok m ↔
      tree.validate Vocabulary.extended "stage2" = .ok () ∧
        ∃ ms : List Node, ofNodes tree.children = .ok ms ∧ m = rootFor tree ms ∧
          (rootFor tree ms).validate Vocabulary.markup "stage2" = .ok () := by
  have hchecked : ∀ {r : Except StructureError Unit}, checked r = .ok () ↔ r = .ok () := by
    intro r
    cases r with
    | error e => exact ⟨fun h => (by cases h), fun h => (by cases h)⟩
    | ok u => exact ⟨fun _ => rfl, fun _ => rfl⟩
  rw [ofExtended]
  constructor
  · intro h
    obtain ⟨⟨⟩, hv, h⟩ := exists_ok_of_bind h
    obtain ⟨ms, hms, h⟩ := exists_ok_of_bind h
    obtain ⟨⟨⟩, hv', h⟩ := exists_ok_of_bind h
    cases h
    exact ⟨hchecked.mp hv, ms, hms, rfl, hchecked.mp hv'⟩
  · rintro ⟨hv, ms, hms, rfl, hv'⟩
    rw [hchecked.mpr hv, hms]
    show (checked ((rootFor tree ms).validate Vocabulary.markup "stage2") >>= fun _ =>
      Except.ok (rootFor tree ms)) = _
    rw [hchecked.mpr hv']
    rfl

end Mdx.Markup
