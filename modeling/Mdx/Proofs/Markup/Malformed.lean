import Mdx.Proofs.Markup.Visited

/-!
# Trees that have no markup

A tree is malformed if one of the nodes that the mapping visits below the root has a `Defect`: it is
another root, a heading with a depth that headings do not have, a table or a row with a child that does
not belong there, or it is kept whole and markup has no such nodes as are in it.

If the alignments of the tables can be listed, the mapping fails exactly on malformed trees, and then with
a structural error.  A table whose alignments are no list makes it fail too, in another way, and whatever
is wrong after that is not seen.

* What a failure is due to has a defect, or is such a table (`AtFault.defect`).
* The markup passes the last check exactly if all nodes that are kept whole are sound
  (`Maps.everywhere_markup_iff`).
-/

namespace Mdx.Markup

open Mdx.Node (Everywhere everywhere_append everywhere_cons everywhere_nil flattenStack
  forall_reaches_iff)

/-! ### What is kept whole -/

/-- A node of a kind that markup has. -/
def InMarkup (n : Node) : Prop :=
  n.kind ∈ Vocabulary.markup

/-- If the node is kept whole, all nodes in it are of kinds that markup has. -/
def KeptSound (n : Node) : Prop :=
  n.kind ∈ Vocabulary.special → Everywhere InMarkup n.children

/-- All nodes that are visited from these and kept whole are sound. -/
def AllKeptSound (cs : List Node) : Prop :=
  ∀ c ∈ cs, ∀ x : Node, Visited c x → KeptSound x

section Kept

variable {n : Node} {rest ms : List Node}

theorem allKeptSound_open (hk : n.kind ∉ closedKinds) :
    AllKeptSound (n :: rest) ↔ AllKeptSound n.children ∧ AllKeptSound rest := by
  have hspecial : n.kind ∉ Vocabulary.special := fun h => hk (List.mem_append_right _ h)
  rw [AllKeptSound, List.forall_mem_cons]
  refine and_congr_left' (forall_reaches_iff.trans ?_)
  exact ⟨fun h => h.2 hk, fun h => ⟨fun hs => absurd hs hspecial, fun _ => h⟩⟩

theorem allKeptSound_closed (hk : n.kind ∈ closedKinds) :
    AllKeptSound (n :: rest) ↔ KeptSound n ∧ AllKeptSound rest := by
  rw [AllKeptSound, List.forall_mem_cons]
  refine and_congr_left' (forall_reaches_iff.trans ?_)
  exact ⟨fun h => h.1, fun h => ⟨h, fun ho => absurd hk ho⟩⟩

theorem everywhere_element {tag : String} {properties : Json.Members} {position : Option Position}
    {cs : List Node} :
    Everywhere InMarkup (Node.element tag properties position cs :: ms) ↔
      Everywhere InMarkup cs ∧ Everywhere InMarkup ms := by
  rw [everywhere_cons]
  exact and_iff_right (show "element" ∈ Vocabulary.markup by decide)

theorem everywhere_elementFor {h : NodeHead} {tag : String} {properties : Json.Members}
    {cs : List Node} :
    Everywhere InMarkup (elementFor h tag properties cs :: ms) ↔
      Everywhere InMarkup cs ∧ Everywhere InMarkup ms :=
  everywhere_element

theorem everywhere_tableSections (rows : List Node) :
    Everywhere InMarkup (tableSections rows) ↔ Everywhere InMarkup rows := by
  rcases rows with _ | ⟨first, _ | ⟨second, rest⟩⟩
  · rfl
  · rw [tableSections, everywhere_element]
    exact and_iff_left everywhere_nil
  · rw [tableSections, everywhere_element, everywhere_element]
    · simp only [everywhere_cons, everywhere_nil, and_true, and_assoc]
    · exact List.cons_ne_nil second rest

theorem everywhere_textLeaf {kind : String} (hk : kind = "text" ∨ kind = "inlineCode")
    {position : Option Position} {h : NodeHead} :
    Everywhere InMarkup (textLeaf kind position h :: ms) ↔ Everywhere InMarkup ms := by
  have hkind : (textLeaf kind position h).kind = kind := by
    rw [textLeaf]
    split <;> rfl
  have hchildren : (textLeaf kind position h).children = [] := by
    rw [textLeaf]
    split <;> rfl
  have hmem : kind ∈ Vocabulary.markup := by rcases hk with rfl | rfl <;> decide
  rw [everywhere_cons, hchildren, InMarkup, hkind]
  exact ⟨fun h => h.2.2, fun h => ⟨hmem, everywhere_nil, h⟩⟩

/-- What is assembled from the markup of a node's children is markup if they are. -/
theorem everywhere_assemble {s : Shape} {role : Role} (hn : s.role? = some role) {h : NodeHead}
    {cs : List Node} :
    Everywhere InMarkup (assemble h cs s :: ms) ↔ Everywhere InMarkup cs ∧ Everywhere InMarkup ms := by
  cases s with
  | kept | text | code | image => cases hn
  | wrapped tag properties => exact everywhere_elementFor
  | list tag properties tight => exact everywhere_elementFor
  | item tight => exact everywhere_elementFor
  | table aligns => exact everywhere_elementFor.trans (and_congr_left' (everywhere_tableSections cs))
  | row => exact everywhere_elementFor

theorem everywhere_assemble_leaf {s : Shape} (hs : s ≠ .kept) (hn : s.role? = none) {h : NodeHead}
    (hf : s.Fits h.kind) :
    Everywhere InMarkup (assemble h [] s :: ms) ↔ Everywhere InMarkup ms := by
  cases s with
  | kept => exact absurd rfl hs
  | text => exact everywhere_textLeaf hf
  | code =>
    have hcode : Everywhere InMarkup
        [Node.element "code" (codeProperties h) none [textLeaf "text" none h]] :=
      everywhere_element.mpr ⟨(everywhere_textLeaf (.inl rfl)).mpr everywhere_nil, everywhere_nil⟩
    exact everywhere_elementFor.trans (and_iff_right hcode)
  | image => exact everywhere_elementFor.trans (and_iff_right everywhere_nil)
  | wrapped _ _ | list _ _ _ | item _ | table _ | row => cases hn

end Kept

/-- **The markup of nodes passes the check of markup exactly if what is kept whole does.** -/
theorem Maps.everywhere_markup_iff {role : Role} {cs ms : List Node} (h : Maps role cs ms) :
    Everywhere InMarkup ms ↔ AllKeptSound cs := by
  induction h with
  | nil => exact ⟨fun _ => List.forall_mem_nil _, fun _ => everywhere_nil⟩
  | @kept role n rest ms hp hs hr ih =>
    have hk : n.kind ∈ Vocabulary.special := fits_of_shapeOf hs
    have hmem : InMarkup n := List.mem_append_right _ hk
    rw [everywhere_cons, allKeptSound_closed (List.mem_append_right _ hk), ih]
    exact ⟨fun h => ⟨fun _ => h.2.1, h.2.2⟩, fun h => ⟨hmem, h.1 hk, h.2⟩⟩
  | @leaf role n s rest ms hp hs hk hn hr ih =>
    have hf : s.Fits n.kind := fits_of_shapeOf hs
    have hclosed : n.kind ∈ closedKinds ∧ n.kind ∉ Vocabulary.special := by
      cases s with
      | kept => exact absurd rfl hk
      | text => rcases hf with hkind | hkind <;> rw [hkind] <;> decide
      | code | image =>
        rw [show n.kind = _ from hf]
        decide
      | wrapped _ _ | list _ _ _ | item _ | table _ | row => cases hn
    rw [everywhere_assemble_leaf hk hn hf, allKeptSound_closed hclosed.1, ih]
    exact (and_iff_right fun hspecial => absurd hspecial hclosed.2).symm
  | @node role inner n s rest cs ms hp hs hn hc hr ihc ihr =>
    rw [everywhere_assemble hn, allKeptSound_open (kind_open_of_role hs hn), ihc, ihr]
  | @item tight n rest cs ms hk hc hr ihc ihr =>
    rw [everywhere_elementFor, allKeptSound_open (by rw [hk]; decide), ihc, ihr]
  | @paragraph n rest cs ms hk hc hr ihc ihr =>
    rw [everywhere_append, allKeptSound_open (by rw [hk]; decide), ihc, ihr]
  | @row tag aligns n rest cs ms hk hc hr ihc ihr =>
    rw [everywhere_elementFor, allKeptSound_open (by rw [hk]; decide), ihc, ihr]
  | @cell tag aligns n rest cs ms hk hc hr ihc ihr =>
    rw [everywhere_elementFor, allKeptSound_open (by rw [hk]; decide), ihc, ihr]

/-! ### Defects -/

/-- The depth of a heading, one unless it is given. -/
def depthOf (h : NodeHead) : Except Json.IntegerFault Int :=
  ((h.props.lookup "depth").getD (.int 1)).toInteger

/-- The kinds that both the tree of a document and markup have. -/
def sharedKinds : List String :=
  ["root", "text", "inlineCode"] ++ Vocabulary.special

/-- What is wrong with a node for which there is no markup. -/
inductive Defect (n : Node) : Prop
  /-- It is a root. -/
  | root (hk : n.kind = "root")
  /-- It is a heading whose depth is not from one to six. -/
  | depth {d : Int} (hk : n.kind = "heading") (hd : depthOf n.head = .ok d) (hout : ¬(1 ≤ d ∧ d ≤ 6))
  /-- It is a table with a child that is no row. -/
  | row {c : Node} (hk : n.kind = "table") (hc : c ∈ n.children) (hno : c.kind ≠ "tableRow")
  /-- It is a row with a child that is no cell. -/
  | cell {c : Node} (hk : n.kind = "tableRow") (hc : c ∈ n.children) (hno : c.kind ≠ "tableCell")
  /-- It is kept whole, and below it is a node of a kind that markup does not have. -/
  | inner {x : Node} (hk : n.kind ∈ Vocabulary.special) (hx : x ∈ flattenStack n.children)
      (hno : x.kind ∉ sharedKinds)

/-- A node with a defect is visited below the root. -/
def Malformed (tree : Node) : Prop :=
  ∃ n : Node, Visited tree n ∧ n ≠ tree ∧ Defect n

/-- Whether a value is made of items: a list, a text or an object. -/
def hasItems : Json → Bool
  | .arr _ | .str _ | .obj _ => true
  | .null | .bool _ | .int _ | .float _ => false

/-- A table whose alignments are given by a value that is not empty and has no items. -/
def Unlisted (n : Node) : Prop :=
  n.kind = "table" ∧ ∃ v : Json, n.prop? "align" = some v ∧ v.isEmpty = false ∧ hasItems v = false

/-- A table whose alignments cannot be listed is visited. -/
def HasUnlisted (tree : Node) : Prop :=
  ∃ n : Node, Visited tree n ∧ Unlisted n

section Defects

variable {n : Node}

theorem headingTag_eq {h : NodeHead} {d : Int} (hd : depthOf h = .ok d) :
    headingTag h = if 1 ≤ d ∧ d ≤ 6 then .ok ("h" ++ toString d)
      else .error (.structural ⟨.headingDepth d, h.position⟩) := by
  rw [depthOf] at hd
  rw [headingTag, hd]

theorem shapeOf_heading {h : NodeHead} (hk : h.kind = "heading") :
    shapeOf h = (headingTag h).map fun tag => .wrapped tag [] := by
  simp [shapeOf, simpleTag?, hk, Vocabulary.special]

theorem shapeOf_table {h : NodeHead} (hk : h.kind = "table") :
    shapeOf h = (alignments h).map .table := by
  simp [shapeOf, simpleTag?, hk, Vocabulary.special]

theorem shapeOf_root {h : NodeHead} (hk : h.kind = "root") :
    shapeOf h = .error (.structural ⟨.unmappedKind "root", h.position⟩) := by
  simp [shapeOf, simpleTag?, hk, Vocabulary.special]

/-- The alignments of a table can be listed, or the failure is one of kinds. -/
theorem alignments_cases (hk : n.kind = "table") :
    (∃ aligns : List Json, alignments n.head = .ok aligns) ∧ ¬Unlisted n ∨
      (∃ m : String, alignments n.head = .error (.badKind m)) ∧ Unlisted n := by
  have hprop : n.prop? "align" = n.head.props.lookup "align" := rfl
  rw [alignments, Unlisted, hprop]
  cases n.head.props.lookup "align" with
  | none =>
    refine .inl ⟨⟨[], rfl⟩, ?_⟩
    rintro ⟨-, v, hv, -⟩
    cases hv
  | some v =>
    by_cases hempty : v.isEmpty = true
    · refine .inl ⟨⟨[], if_pos hempty⟩, ?_⟩
      rintro ⟨-, w, hw, hne, -⟩
      cases hw
      exact absurd hempty (by rw [hne]; decide)
    · have hitems : hasItems v = true ∨ hasItems v = false := by cases hasItems v <;> simp
      simp only [hempty]
      rcases hitems with hitems | hitems
      · refine .inl ⟨?_, ?_⟩
        · cases v <;> first | exact ⟨_, rfl⟩ | cases hitems
        · rintro ⟨-, w, hw, -, hno⟩
          cases hw
          exact absurd hitems (by rw [hno]; decide)
      · refine .inr ⟨?_, hk, v, rfl, by simpa using hempty, hitems⟩
        cases v <;> first | exact ⟨_, rfl⟩ | cases hitems

/-- The kinds of a document whose shape is no matter of their kind alone, or that ask for certain
children. -/
theorem kind_cases (hk : n.kind ∈ Vocabulary.extended) :
    n.kind ∈ freeKinds ∨ n.kind = "root" ∨ n.kind = "heading" ∨ n.kind = "table" ∨
      n.kind = "tableRow" := by
  have hall : ∀ kind ∈ Vocabulary.extended, kind ∈ freeKinds ∨ kind = "root" ∨ kind = "heading" ∨
      kind = "table" ∨ kind = "tableRow" := by decide
  exact hall n.kind hk

/-- A regular node that is sound if it is kept has no defect, and its alignments can be listed. -/
theorem not_defect_of_regular (hr : Regular n) (hne : n.kind ≠ "html") (hs : KeptSound n)
    (hbelow : ∀ x ∈ flattenStack n.children, x.kind ∈ Vocabulary.extended) :
    ¬Defect n ∧ ¬Unlisted n := by
  obtain ⟨s, hshape⟩ := hr.shape.resolve_left hne
  constructor
  · rintro (hk | ⟨hk, hd, hout⟩ | ⟨hk, hc, hno⟩ | ⟨hk, hc, hno⟩ | ⟨hk, hx, hno⟩)
    · rw [shapeOf_root hk] at hshape
      cases hshape
    · rw [shapeOf_heading hk, headingTag_eq hd, if_neg hout] at hshape
      cases hshape
    · have hadmits := hr.admitted _ hc
      rw [hk] at hadmits
      exact hno (beq_iff_eq.mp hadmits)
    · have hadmits := hr.admitted _ hc
      rw [hk] at hadmits
      exact hno (beq_iff_eq.mp hadmits)
    · have hshared : ∀ kind ∈ Vocabulary.markup, kind ∈ Vocabulary.extended → kind ∈ sharedKinds := by
        decide
      exact hno (hshared _ (hs hk _ hx) (hbelow _ hx))
  · intro hunlisted
    rcases alignments_cases hunlisted.1 with ⟨-, hno⟩ | ⟨⟨m, hm⟩, -⟩
    · exact hno hunlisted
    · rw [shapeOf_table hunlisted.1, hm] at hshape
      cases hshape

/-- What a failure is due to has a defect, and then the failure is a structural error, or alignments that
cannot be listed. -/
theorem AtFault.defect {f : Failure} (h : AtFault n f) (hk : n.kind ∈ Vocabulary.extended)
    (hd : n.kind = "heading" → ∃ d : Int, depthOf n.head = .ok d) :
    (∃ e : StructureError, f = .structural e) ∧ Defect n ∨ (∃ m : String, f = .badKind m) ∧ Unlisted n := by
  cases h with
  | shape hs =>
    rcases kind_cases hk with hfree | hroot | hheading | htable | hrow
    · obtain ⟨s, hs'⟩ := (regular_of_free hfree).shape.resolve_left (by
        intro hhtml
        rw [hhtml] at hk
        exact absurd hk (by decide))
      rw [hs'] at hs
      cases hs
    · rw [shapeOf_root hroot] at hs
      cases hs
      exact .inl ⟨⟨_, rfl⟩, .root hroot⟩
    · obtain ⟨d, hdepth⟩ := hd hheading
      rw [shapeOf_heading hheading, headingTag_eq hdepth] at hs
      by_cases hrange : 1 ≤ d ∧ d ≤ 6
      · rw [if_pos hrange] at hs
        cases hs
      · rw [if_neg hrange] at hs
        cases hs
        exact .inl ⟨⟨_, rfl⟩, .depth hheading hdepth hrange⟩
    · rw [shapeOf_table htable] at hs
      rcases alignments_cases htable with ⟨⟨aligns, ha⟩, -⟩ | ⟨⟨m, hm⟩, hunlisted⟩
      · rw [ha] at hs
        cases hs
      · rw [hm] at hs
        cases hs
        exact .inr ⟨⟨m, rfl⟩, hunlisted⟩
    · rw [shapeOf_tableRow hrow] at hs
      cases hs
  | @child c e hc hno =>
    refine .inl ⟨⟨e, rfl⟩, ?_⟩
    rcases kind_cases hk with hfree | hroot | hheading | htable | hrow
    · have hall : ∀ kind ∈ freeKinds, childKind? kind = none := by decide
      rw [admits, hall n.kind hfree] at hno
      cases hno
    · exact .root hroot
    · rw [hheading] at hno
      cases hno
    · rw [htable] at hno
      exact .row htable hc (beq_eq_false_iff_ne.mp hno)
    · rw [hrow] at hno
      exact .cell hrow hc (beq_eq_false_iff_ne.mp hno)

end Defects

/-! ### Trees -/

theorem ofExtended_cases {tree : Node} (hv : tree.validate Vocabulary.extended "stage2" = .ok ()) :
    (∃ (f : Failure), ofNodes tree.children = .error f ∧ ofExtended tree = .error f) ∨
      ∃ ms : List Node, ofNodes tree.children = .ok ms ∧
        (Everywhere InMarkup ms ∧ ofExtended tree = .ok (rootFor tree ms) ∨
          ¬Everywhere InMarkup ms ∧ ∃ e : StructureError, ofExtended tree = .error (.structural e)) := by
  have hstart : ofExtended tree = (ofNodes tree.children).bind fun ms =>
      (checked ((rootFor tree ms).validate Vocabulary.markup "stage2")).bind fun _ =>
        .ok (rootFor tree ms) := by
    rw [ofExtended, hv]
    rfl
  cases hms : ofNodes tree.children with
  | error f =>
    rw [hms] at hstart
    exact .inl ⟨f, rfl, hstart⟩
  | ok ms =>
    rw [hms] at hstart
    refine .inr ⟨ms, rfl, ?_⟩
    have hcheck : (rootFor tree ms).validate Vocabulary.markup "stage2" = .ok () ↔
        Everywhere InMarkup ms := by
      rw [Node.validate_eq_ok_iff, Node.flatten_eq, List.forall_mem_cons]
      exact ⟨fun h => h.2.2, fun h => ⟨rfl, show "root" ∈ Vocabulary.markup by decide, h⟩⟩
    cases hv' : (rootFor tree ms).validate Vocabulary.markup "stage2" with
    | ok u =>
      refine .inl ⟨hcheck.mp hv', ?_⟩
      rw [hstart, Except.bind, hv']
      rfl
    | error e =>
      refine .inr ⟨fun h => ?_, e, ?_⟩
      · rw [hcheck.mpr h] at hv'
        cases hv'
      · rw [hstart, Except.bind, hv']
        rfl

/-- **The markup of a tree, its structural errors and its other failures**: which of them comes, what
is wrong with the tree, and that nothing is wrong otherwise. -/
theorem ofExtended_trichotomy {tree : Node} (hroot : tree.kind = "root")
    (hkinds : ∀ n ∈ tree.flatten, n.kind ∈ Vocabulary.extended)
    (hdepths : ∀ n ∈ tree.flatten, n.kind = "heading" → ∃ d : Int, depthOf n.head = .ok d) :
    (∃ m : Node, ofExtended tree = .ok m) ∧ ¬Malformed tree ∧ ¬HasUnlisted tree ∨
      (∃ e : StructureError, ofExtended tree = .error (.structural e)) ∧ Malformed tree ∨
      (∃ m : String, ofExtended tree = .error (.badKind m)) ∧ HasUnlisted tree := by
  have hopen : tree.kind ∉ closedKinds := by
    rw [hroot]
    decide
  -- a node that is visited from a child is visited below the root
  have hbelow : ∀ c ∈ tree.children, ∀ x : Node, Visited c x → Visited tree x ∧ x ≠ tree :=
    fun c hc x hx => ⟨.down hopen hc hx, hx.ne_of_child hc⟩
  have hmem : ∀ x : Node, Visited tree x → x ∈ tree.flatten := fun x hx => hx.mem_flatten
  rcases ofExtended_cases (Node.validate_eq_ok_iff.mpr ⟨hroot, hkinds⟩) with
    ⟨f, hf, hfail⟩ | ⟨ms, hms, hcheck⟩
  · rcases blames_of_map tree.children .nodes f hf with ⟨c, hc, hno, -⟩ | ⟨c, hc, x, hx, hfault⟩
    · cases hno
    · obtain ⟨hvisited, hne⟩ := hbelow c hc x hx
      rcases hfault.defect (hkinds x (hmem x hvisited)) (hdepths x (hmem x hvisited)) with
        ⟨⟨e, rfl⟩, hdefect⟩ | ⟨⟨m, rfl⟩, hunlisted⟩
      · exact .inr (.inl ⟨⟨e, hfail⟩, x, hvisited, hne, hdefect⟩)
      · exact .inr (.inr ⟨⟨m, hfail⟩, x, hvisited, hunlisted⟩)
  · have hmaps : Maps .nodes tree.children ms := map_eq_ok_iff.mp hms
    have hinner : ∀ x ∈ tree.flatten, ∀ y ∈ flattenStack x.children, y.kind ∈ Vocabulary.extended := by
      intro x hx y hy
      refine hkinds y (Node.mem_flatten_trans hx ?_)
      rw [Node.flatten_eq]
      exact List.mem_cons_of_mem x hy
    rcases hcheck with ⟨hmarkup, hok⟩ | ⟨hno, he⟩
    · have hkept := hmaps.everywhere_markup_iff.mp hmarkup
      have hfine : ∀ c ∈ tree.children, ∀ x : Node, Visited c x → ¬Defect x ∧ ¬Unlisted x := by
        intro c hc x hx
        have hisOk : (ofNode c).isOk = true := by
          have hall : (ofNodes tree.children).isOk = true := isOk_iff.mpr ⟨ms, hms⟩
          rw [isOk_ofNodes] at hall
          exact List.all_eq_true.mp hall c hc
        obtain ⟨hregular, hne⟩ := regular_of_isOk hisOk x hx
        exact not_defect_of_regular hregular hne (hkept c hc x hx)
          (hinner x (hmem x (hbelow c hc x hx).1))
      refine .inl ⟨⟨_, hok⟩, ?_, ?_⟩
      · rintro ⟨x, hx, hne, hdefect⟩
        obtain ⟨-, c, hc, hcx⟩ := hx.exists_child hne
        exact (hfine c hc x hcx).1 hdefect
      · rintro ⟨x, hx, hunlisted⟩
        have hne : x ≠ tree := by
          rintro rfl
          exact absurd (hroot.symm.trans hunlisted.1) (by decide)
        obtain ⟨-, c, hc, hcx⟩ := hx.exists_child hne
        exact (hfine c hc x hcx).2 hunlisted
    · refine .inr (.inl ⟨he, ?_⟩)
      rw [hmaps.everywhere_markup_iff] at hno
      simp only [AllKeptSound, KeptSound, Everywhere, InMarkup, not_forall] at hno
      obtain ⟨c, hc, x, hx, hk, y, hy, hmarkup⟩ := hno
      obtain ⟨hvisited, hne⟩ := hbelow c hc x hx
      refine ⟨x, hvisited, hne, .inner hk hy fun hshared => hmarkup ?_⟩
      have hsub : ∀ kind ∈ sharedKinds, kind ∈ Vocabulary.markup := by decide
      exact hsub y.kind hshared

/-- **The mapping fails exactly on malformed trees.**  For a tree of a document's kinds whose headings have
whole numbers for depths: unless there is a table whose alignments cannot be listed, there is a structural
error if and only if the tree is malformed.  In any case a structural error comes of malformed trees only,
a tree has markup if and only if it is not malformed and has no such table, and all failures that are not
structural errors are due to such a table. -/
theorem mapping_fails_on_malformed_trees (tree : Node) (hroot : tree.kind = "root")
    (hkinds : ∀ n ∈ tree.flatten, n.kind ∈ Vocabulary.extended)
    (hdepths : ∀ n ∈ tree.flatten, n.kind = "heading" → ∃ d : Int, depthOf n.head = .ok d) :
    (¬HasUnlisted tree →
      ((∃ e : StructureError, ofExtended tree = .error (.structural e)) ↔ Malformed tree)) ∧
    ((∃ e : StructureError, ofExtended tree = .error (.structural e)) → Malformed tree) ∧
    ((∃ m : Node, ofExtended tree = .ok m) ↔ ¬Malformed tree ∧ ¬HasUnlisted tree) ∧
    ∀ f : Failure, ofExtended tree = .error f →
      (∃ e : StructureError, f = .structural e) ∨ HasUnlisted tree ∧ ∃ m : String, f = .badKind m := by
  rcases ofExtended_trichotomy hroot hkinds hdepths with
    ⟨⟨m, hm⟩, hwell, hlisted⟩ | ⟨⟨e, he⟩, hmal⟩ | ⟨⟨m, hm⟩, hunlisted⟩
  · rw [hm]
    refine ⟨fun _ => ⟨?_, fun hmal => absurd hmal hwell⟩, ?_, ?_, ?_⟩
    · rintro ⟨e, he⟩
      cases he
    · rintro ⟨e, he⟩
      cases he
    · exact ⟨fun _ => ⟨hwell, hlisted⟩, fun _ => ⟨m, rfl⟩⟩
    · intro f hf
      cases hf
  · rw [he]
    refine ⟨fun _ => ⟨fun _ => hmal, fun _ => ⟨e, rfl⟩⟩, fun _ => hmal, ⟨?_, ?_⟩, ?_⟩
    · rintro ⟨m, hm⟩
      cases hm
    · exact fun h => absurd hmal h.1
    · intro f hf
      cases hf
      exact .inl ⟨e, rfl⟩
  · rw [hm]
    refine ⟨fun hlisted => absurd hunlisted hlisted, ?_, ⟨?_, ?_⟩, ?_⟩
    · rintro ⟨e, he⟩
      cases he
    · rintro ⟨m', hm'⟩
      cases hm'
    · exact fun h => absurd hunlisted h.2
    · intro f hf
      cases hf
      exact .inr ⟨hunlisted, m, rfl⟩

/-- An embedded element that holds emphasis. -/
def emphasisInElement : Node :=
  .branch { kind := "jsx", value := "<b/>" } [.branch { kind := "emphasis" } []]

/-- A heading, and a tight list with such an element in its item. -/
def listOfElement : Node :=
  .ofChildren
    [.branch { kind := "heading", props := [("depth", .int 6)] } [.ofText "a" none],
     .branch { kind := "list" }
      [.branch { kind := "listItem" } [.branch { kind := "paragraph" } [emphasisInElement]]]]

/-- A table without rows in a piece of code, and one with alignments. -/
def tableInCode : Node :=
  .ofChildren
    [.branch { kind := "code" } [.branch { kind := "table" } [.ofText "a" none]],
     .branch { kind := "table", props := [("align", .arr [.str "left"])] }
      [.branch { kind := "tableRow" } [.branch { kind := "tableCell" } [.ofText "b" none]]]]

theorem malformed_listOfElement : Malformed listOfElement := by
  have hvisited : Visited (.branch { kind := "list" } [.branch { kind := "listItem" }
      [.branch { kind := "paragraph" } [emphasisInElement]]]) emphasisInElement :=
    .down (by decide) List.mem_cons_self <| .down (by decide) List.mem_cons_self <|
      .down (by decide) List.mem_cons_self <| .here _
  have hmem : _ ∈ listOfElement.children := List.mem_cons_of_mem _ List.mem_cons_self
  refine ⟨emphasisInElement, .down (by decide) hmem hvisited, hvisited.ne_of_child hmem, ?_⟩
  exact .inner (by decide) (Node.mem_flattenStack_self List.mem_cons_self) (by decide)

/-- Emphasis in an element is found in a list's item, and a table in a piece of code is not looked at. -/
theorem mapping_fails_on_malformed_trees_element :
    (Malformed listOfElement ∧ ∃ e : StructureError, ofExtended listOfElement = .error (.structural e)) ∧
      (∃ m : Node, ofExtended tableInCode = .ok m) ∧ ¬Malformed tableInCode := by
  have hdepths : ∀ t : Node,
      (t.flatten.all fun n => n.kind != "heading" || (depthOf n.head).isOk) = true →
        ∀ n ∈ t.flatten, n.kind = "heading" → ∃ d : Int, depthOf n.head = .ok d := by
    intro t hall n hn hk
    have hor := List.all_eq_true.mp hall n hn
    rw [hk] at hor
    exact isOk_iff.mp hor
  have hlist := mapping_fails_on_malformed_trees listOfElement rfl (by decide +kernel)
    (hdepths _ (by decide +kernel))
  have hcode := mapping_fails_on_malformed_trees tableInCode rfl (by decide +kernel)
    (hdepths _ (by decide +kernel))
  have hlisted : ¬HasUnlisted listOfElement := by
    have hno : ∀ n ∈ listOfElement.flatten, n.kind ≠ "table" := by decide +kernel
    rintro ⟨n, hn, hk, -⟩
    exact hno n hn.mem_flatten hk
  have hok : ∃ m : Node, ofExtended tableInCode = .ok m := isOk_iff.mp (by decide +kernel)
  exact ⟨⟨malformed_listOfElement, (hlist.1 hlisted).mpr malformed_listOfElement⟩, hok,
    (hcode.2.2.1.mp hok).1⟩

/-- A table that has a paragraph for a row, and a number for its alignments. -/
def tableByNumber : Node :=
  .branch { kind := "table", props := [("align", .int 5)] } [.leaf { kind := "paragraph" }]

/-- Alignments that cannot be listed hide that a child of the table is no row. -/
theorem unlisted_alignments_hide_defect :
    (Node.ofChildren [tableByNumber]).kind = "root" ∧
    (∀ n ∈ (Node.ofChildren [tableByNumber]).flatten, n.kind ∈ Vocabulary.extended) ∧
    (∀ n ∈ (Node.ofChildren [tableByNumber]).flatten, n.kind ≠ "heading") ∧
    Malformed (.ofChildren [tableByNumber]) ∧
    ¬∃ e : StructureError, ofExtended (.ofChildren [tableByNumber]) = .error (.structural e) := by
  have hkinds : ∀ n ∈ (Node.ofChildren [tableByNumber]).flatten, n.kind ∈ Vocabulary.extended := by
    decide +kernel
  have hvisited : Visited tableByNumber tableByNumber := .here _
  have htable : tableByNumber ∈ (Node.ofChildren [tableByNumber]).children := List.mem_cons_self
  have hfail : ofNodes [tableByNumber] = .error (.badKind "'int' object is not iterable") := rfl
  refine ⟨rfl, hkinds, by decide +kernel, ?_, ?_⟩
  · refine ⟨tableByNumber, .down (by decide) htable hvisited, hvisited.ne_of_child htable, ?_⟩
    exact .row rfl List.mem_cons_self (by decide)
  · rintro ⟨e, he⟩
    rcases ofExtended_cases (Node.validate_eq_ok_iff.mpr ⟨rfl, hkinds⟩) with ⟨f, hf, hf'⟩ | ⟨ms, hms, -⟩
    · cases hfail.symm.trans hf
      rw [hf'] at he
      cases he
    · cases hfail.symm.trans hms

end Mdx.Markup
