import Mathlib.Data.List.Forall2
import Mdx.Proofs.Extended.Element

/-!
# Extension adds and keeps the order

An extended tree is the tree of the document with two changes: a run of statements takes the place of
the top-level nodes that hold it, and an element the place of each piece of raw markup.  `Becomes` says
what a segment of the top level turns into, and `Reclassified` what a node at any depth turns into.
Both are read off the code by the lemmas `reclassify_eq_ok_iff` and `exists_pieces`.

No raw markup is left after that, and no statement stands below the top level, so the check of the
extended tree never fails (`validate_extended`).
-/

namespace Mdx.Extended

open Mdx.Element
open Mdx.Node (flatten_eq flattenStack mem_flatten mem_flattenStack mem_flattenStack_cons)
open Mdx.Script (Statement StatementKind isRun_of_splitStatements)

/-! ### Reclassified trees -/

mutual

/-- A tree with an element in place of each piece of raw markup.  The element has the value, the
position and the properties of the raw markup, and the children that the value parses to; a piece
without a value counts as an empty one.  Every other node is as it was. -/
inductive Reclassified (doc : Option Document) : Option Position → Node → Node → Prop
  | raw {nearest : Option Position} {n : Node} {cs : List Node} (hk : n.kind = "html")
      (hp : parseChildren n.text.toList (placement doc nearest n.head n.text.toList) = .ok cs) :
      Reclassified doc nearest n (.branch { n.head with kind := "jsx", value := some n.text } cs)
  | leaf {nearest : Option Position} {h : NodeHead} (hk : h.kind ≠ "html") :
      Reclassified doc nearest (.leaf h) (.leaf h)
  | branch {nearest : Option Position} {h : NodeHead} {cs ms : List Node} (hk : h.kind ≠ "html")
      (hc : ReclassifiedList doc (h.position.or nearest) cs ms) :
      Reclassified doc nearest (.branch h cs) (.branch h ms)

/-- Trees with an element in place of each piece of raw markup, one by one. -/
inductive ReclassifiedList (doc : Option Document) :
    Option Position → List Node → List Node → Prop
  | nil {nearest : Option Position} : ReclassifiedList doc nearest [] []
  | cons {nearest : Option Position} {n m : Node} {ns ms : List Node}
      (h : Reclassified doc nearest n m) (hs : ReclassifiedList doc nearest ns ms) :
      ReclassifiedList doc nearest (n :: ns) (m :: ms)

end

section Reclassify

variable {doc : Option Document} {nearest : Option Position}

theorem reclassifyList_eq_ok_iff {ns ms : List Node} :
    reclassifyList doc nearest ns = .ok ms ↔
      List.Forall₂ (fun n m => reclassify doc nearest n = .ok m) ns ms := by
  induction ns generalizing ms with
  | nil =>
    rw [reclassifyList, List.forall₂_nil_left_iff, Except.ok.injEq]
    exact eq_comm
  | cons n rest ih =>
    rw [reclassifyList, List.forall₂_cons_left_iff]
    cases hn : reclassify doc nearest n with
    | error e => simp
    | ok m =>
      simp only [← ih, Except.ok.injEq]
      cases reclassifyList doc nearest rest with
      | error e => simp
      | ok ms' => simp [eq_comm]

theorem reclassifiedList_iff {ns ms : List Node} :
    ReclassifiedList doc nearest ns ms ↔ List.Forall₂ (Reclassified doc nearest) ns ms := by
  constructor
  · intro h
    induction ns generalizing ms with
    | nil =>
      cases h
      exact .nil
    | cons n rest ih =>
      cases h with
      | cons hn hrest => exact .cons hn (ih hrest)
  · intro h
    induction h with
    | nil => exact .nil
    | cons hn _ ih => exact .cons hn ih

/-- Two relations that agree on the members of a list relate it to the same lists. -/
theorem forall₂_congr_mem {α β : Type} {R S : α → β → Prop} {xs : List α}
    (h : ∀ x ∈ xs, ∀ y, R x y ↔ S x y) {ys : List β} :
    List.Forall₂ R xs ys ↔ List.Forall₂ S xs ys := by
  induction xs generalizing ys with
  | nil => rw [List.forall₂_nil_left_iff, List.forall₂_nil_left_iff]
  | cons x xs ih =>
    have hx := h x List.mem_cons_self
    have hxs := fun y hy => h y (List.mem_cons_of_mem x hy)
    simp only [List.forall₂_cons_left_iff, hx, ih hxs]

theorem exists_of_mem_right {α β : Type} {R : α → β → Prop} {xs : List α} {ys : List β}
    (h : List.Forall₂ R xs ys) {y : β} (hy : y ∈ ys) : ∃ x ∈ xs, R x y := by
  induction h with
  | nil => cases hy
  | @cons x z xs ys hx _ ih =>
    rcases List.mem_cons.mp hy with rfl | hy
    · exact ⟨x, List.mem_cons_self, hx⟩
    · obtain ⟨x', hx', hr⟩ := ih hy
      exact ⟨x', List.mem_cons_of_mem x hx', hr⟩

theorem elementOf_eq_ok_iff {n m : Node} :
    elementOf doc nearest n.head = .ok m ↔
      ∃ cs : List Node,
        parseChildren n.text.toList (placement doc nearest n.head n.text.toList) = .ok cs ∧
        m = .branch { n.head with kind := "jsx", value := some n.text } cs := by
  have htext : n.head.value.getD "" = n.text := rfl
  rw [elementOf, htext]
  cases parseChildren n.text.toList (placement doc nearest n.head n.text.toList) with
  | error e => simp
  | ok cs => simp [eq_comm]

theorem reclassify_raw {n : Node} (hk : n.kind = "html") :
    reclassify doc nearest n = elementOf doc nearest n.head := by
  cases n with
  | leaf h => exact if_pos hk
  | branch h cs =>
    rw [reclassify]
    exact if_pos hk

theorem reclassified_raw_iff {n m : Node} (hk : n.kind = "html") :
    Reclassified doc nearest n m ↔ elementOf doc nearest n.head = .ok m := by
  rw [elementOf_eq_ok_iff]
  constructor
  · intro h
    cases h with
    | raw _ hp => exact ⟨_, hp, rfl⟩
    | leaf hne => exact absurd hk hne
    | branch hne _ => exact absurd hk hne
  · rintro ⟨cs, hp, rfl⟩
    exact .raw hk hp

/-- **Reclassification does what `Reclassified` says.** -/
theorem reclassify_eq_ok_iff {n m : Node} :
    reclassify doc nearest n = .ok m ↔ Reclassified doc nearest n m := by
  induction n using Node.induction generalizing nearest m with
  | step n ih =>
    by_cases hk : n.kind = "html"
    · rw [reclassify_raw hk, reclassified_raw_iff hk]
    · cases n with
      | leaf h =>
        have hk' : h.kind ≠ "html" := hk
        rw [reclassify, if_neg hk']
        constructor
        · rintro ⟨⟩
          exact .leaf hk
        · intro hm
          cases hm with
          | raw hk' _ => exact absurd hk' hk
          | leaf _ => rfl
      | branch h cs =>
        have hlist {ms : List Node} :
            reclassifyList doc (h.position.or nearest) cs = .ok ms ↔
              ReclassifiedList doc (h.position.or nearest) cs ms := by
          rw [reclassifyList_eq_ok_iff, reclassifiedList_iff]
          exact forall₂_congr_mem fun c hc m => ih c hc
        have hk' : h.kind ≠ "html" := hk
        rw [reclassify, if_neg hk']
        constructor
        · intro hm
          cases hcs : reclassifyList doc (h.position.or nearest) cs with
          | error e =>
            rw [hcs] at hm
            cases hm
          | ok ms =>
            rw [hcs] at hm
            cases hm
            exact .branch hk (hlist.mp hcs)
        · intro hm
          cases hm with
          | raw hk' _ => exact absurd hk' hk
          | branch _ hc => rw [hlist.mpr hc]

end Reclassify

/-! ### Segments -/

/-- A statement of a module: a leaf that is an import or an export. -/
def IsStatement (n : Node) : Prop :=
  ∃ h : NodeHead, n = .leaf h ∧ (h.kind = "import" ∨ h.kind = "export")

theorem isStatement_statementNode (src : List Char) (position : Option Position) (st : Statement) :
    IsStatement (statementNode src position st) := by
  refine ⟨_, rfl, ?_⟩
  show st.kind.keyword = "import" ∨ st.kind.keyword = "export"
  cases st.kind
  · exact .inl rfl
  · exact .inr rfl

theorem IsWritten.isStatement {doc : Option Document} {n : Node} (h : IsWritten doc n) :
    IsStatement n := by
  obtain ⟨src, position, st, rfl, -⟩ := h
  exact isStatement_statementNode src position st

/-- What a segment of the top level becomes: a kept node is reclassified, and a run, which begins with
a paragraph, gives way to its statements. -/
inductive Becomes (doc : Option Document) (nearest : Option Position) : Segment → List Node → Prop
  | kept {n m : Node} (h : Reclassified doc nearest n m) : Becomes doc nearest (.kept n) [m]
  | run {first : Node} {more statements : List Node} (hp : first.kind = "paragraph")
      (hne : statements ≠ []) (hs : ∀ s ∈ statements, IsStatement s) :
      Becomes doc nearest (.run first more statements) statements

/-- A run begins with a paragraph and has statements, at least one. -/
def Segment.Sound : Segment → Prop
  | .kept _ => True
  | .run first _ statements =>
      first.kind = "paragraph" ∧ statements ≠ [] ∧ ∀ s ∈ statements, IsStatement s

theorem Extraction.sound {doc : Option Document} {nodes : List Node} {segs : List Segment}
    (h : Extraction doc nodes segs) : ∀ seg ∈ segs, seg.Sound := by
  induction h with
  | nil => simp
  | content ho h ih => exact List.forall_mem_cons.mpr ⟨trivial, ih⟩
  | @textRun n rest found segs kind literal ho hf h ih =>
    refine List.forall_mem_cons.mpr ⟨⟨(opening_eq_textRun ho).1, ?_⟩, ih⟩
    obtain ⟨sts, stop, hsplit, -, rfl⟩ := runFromText_eq_ok hf
    have hrun := isRun_of_splitStatements (Nat.zero_le _) hsplit
    refine ⟨mt List.map_eq_nil_iff.mp hrun.ne_nil, fun s hs => ?_⟩
    obtain ⟨st, -, rfl⟩ := List.mem_map.mp hs
    exact isStatement_statementNode _ _ st
  | @sourceRun n rest found segs d kind start stop ho hf h ih =>
    obtain ⟨-, hkind, p, -, -, hkey⟩ := opening_eq_sourceRun ho
    refine List.forall_mem_cons.mpr ⟨⟨hkind, ?_⟩, ih⟩
    obtain ⟨sts, hsplit, -, rfl⟩ := runFromSource_eq_ok hf
    have hrun := isRun_of_splitStatements (lt_length_of_statementKeyword? hkey).le hsplit
    refine ⟨mt List.map_eq_nil_iff.mp hrun.ne_nil, fun s hs => ?_⟩
    obtain ⟨st, -, rfl⟩ := List.mem_map.mp hs
    exact isStatement_statementNode _ _ st

section Pieces

variable {doc : Option Document} {nearest : Option Position}

theorem IsStatement.reclassified_iff {s m : Node} (hs : IsStatement s) :
    Reclassified doc nearest s m ↔ s = m := by
  obtain ⟨h, rfl, hkind⟩ := hs
  have hk : h.kind ≠ "html" := by
    rcases hkind with hkind | hkind <;> rw [hkind] <;> decide
  constructor
  · intro hm
    cases hm with
    | raw hk' _ => exact absurd hk' hk
    | leaf _ => rfl
  · rintro rfl
    exact .leaf hk

theorem reclassifyList_append {xs ys out : List Node}
    (h : reclassifyList doc nearest (xs ++ ys) = .ok out) :
    ∃ as bs : List Node, reclassifyList doc nearest xs = .ok as ∧
      reclassifyList doc nearest ys = .ok bs ∧ out = as ++ bs := by
  simp only [reclassifyList_eq_ok_iff] at h ⊢
  have htake := (List.forall₂_take_append out xs ys h.flip).flip
  have hdrop := (List.forall₂_drop_append out xs ys h.flip).flip
  exact ⟨_, _, htake, hdrop, (List.take_append_drop _ _).symm⟩

/-- **Each segment becomes a piece of the new top level**, and the pieces follow one another. -/
theorem exists_pieces {segs : List Segment} (hsound : ∀ seg ∈ segs, seg.Sound) {out : List Node}
    (h : reclassifyList doc nearest (segs.flatMap Segment.written) = .ok out) :
    ∃ pieces : List (List Node), List.Forall₂ (Becomes doc nearest) segs pieces ∧
      out = pieces.flatten := by
  induction segs generalizing out with
  | nil =>
    rw [List.flatMap_nil, reclassifyList] at h
    cases h
    exact ⟨[], .nil, rfl⟩
  | cons seg rest ih =>
    obtain ⟨hseg, hrest⟩ := List.forall_mem_cons.mp hsound
    rw [List.flatMap_cons] at h
    obtain ⟨as, bs, has, hbs, rfl⟩ := reclassifyList_append h
    obtain ⟨pieces, hpieces, rfl⟩ := ih hrest hbs
    refine ⟨as :: pieces, .cons ?_ hpieces, rfl⟩
    rw [reclassifyList_eq_ok_iff] at has
    simp only [reclassify_eq_ok_iff] at has
    cases seg with
    | kept n =>
      obtain ⟨m, ms, hm, hnil, rfl⟩ := List.forall₂_cons_left_iff.mp has
      cases hnil
      exact .kept hm
    | run first more statements =>
      obtain ⟨hp, hne, hstatements⟩ := hseg
      have hsame : List.Forall₂ Eq statements as :=
        (forall₂_congr_mem fun s hs m => (hstatements s hs).reclassified_iff).mp has
      rw [List.forall₂_eq_eq_eq] at hsame
      subst hsame
      exact .run hp hne hstatements

/-- A node of a piece is a statement, or a node of its segment reclassified. -/
theorem exists_of_mem_pieces {segs : List Segment} {pieces : List (List Node)}
    (h : List.Forall₂ (Becomes doc nearest) segs pieces) {c : Node} (hc : c ∈ pieces.flatten) :
    IsStatement c ∨ ∃ n ∈ segs.flatMap Segment.taken, Reclassified doc nearest n c := by
  induction h with
  | nil => cases hc
  | @cons seg piece segs pieces hseg _ ih =>
    rw [List.flatMap_cons]
    rcases List.mem_append.mp hc with hc | hc
    · cases hseg with
      | @kept n m hm =>
        rw [List.mem_singleton.mp hc]
        exact .inr ⟨n, List.mem_append_left _ List.mem_cons_self, hm⟩
      | run hp hne hs => exact .inl (hs c hc)
    · refine (ih hc).imp_right ?_
      rintro ⟨n, hn, hm⟩
      exact ⟨n, List.mem_append_right _ hn, hm⟩

end Pieces

/-! ### Kinds -/

theorem kind_of_mem_elementOf {doc : Option Document} {nearest : Option Position} {h : NodeHead}
    {m x : Node} (hm : elementOf doc nearest h = .ok m) (hx : x ∈ m.flatten) :
    x.kind = "jsx" ∨ x.kind = "text" := by
  unfold elementOf at hm
  dsimp only at hm
  split at hm
  · cases hm
  next cs hcs =>
    cases hm
    rw [flatten_eq] at hx
    rcases List.mem_cons.mp hx with rfl | hx
    · exact .inl rfl
    · obtain ⟨ns, hns, hin⟩ := exists_parse_of_mem_parseChildren hcs hx
      exact kind_of_mem_parseFragment hns hin

/-- A reclassified tree has elements, their texts, and nodes of the kinds that were there before, raw
markup excepted. -/
theorem kind_of_mem_reclassify {doc : Option Document} {nearest : Option Position} {n m x : Node}
    (hm : reclassify doc nearest n = .ok m) (hx : x ∈ m.flatten) :
    (x.kind = "jsx" ∨ x.kind = "text") ∨ x.kind ≠ "html" ∧ ∃ y ∈ n.flatten, y.kind = x.kind := by
  induction n using Node.induction generalizing nearest m with
  | step n ih =>
    have hself : n ∈ n.flatten := mem_flatten.mpr (.inl rfl)
    cases reclassify_eq_ok_iff.mp hm with
    | raw hk _ =>
      rw [reclassify_raw hk] at hm
      exact .inl (kind_of_mem_elementOf hm hx)
    | leaf hk =>
      simp only [flatten_eq, Node.children, Node.flattenStack_nil, List.mem_singleton] at hx
      subst hx
      exact .inr ⟨hk, _, hself, rfl⟩
    | @branch _ h cs ms hk hc =>
      rcases mem_flatten.mp hx with rfl | ⟨c, hcm, hxc⟩
      · exact .inr ⟨hk, _, hself, rfl⟩
      · obtain ⟨b, hb, hbc⟩ := exists_of_mem_right (reclassifiedList_iff.mp hc) hcm
        refine (ih b hb (reclassify_eq_ok_iff.mpr hbc) hxc).imp_right ?_
        rintro ⟨hne, y, hy, heq⟩
        exact ⟨hne, y, mem_flatten.mpr (.inr ⟨b, hb, hy⟩), heq⟩

theorem reclassified_self {doc : Option Document} {nearest : Option Position} {n : Node}
    (hplain : ∀ x ∈ n.flatten, x.kind ≠ "html") : Reclassified doc nearest n n := by
  induction n using Node.induction generalizing nearest with
  | step n ih =>
    have hk : n.kind ≠ "html" := hplain n (Node.mem_flatten.mpr (.inl rfl))
    cases n with
    | leaf h => exact .leaf hk
    | branch h cs =>
      refine .branch hk (reclassifiedList_iff.mpr (List.forall₂_same.mpr fun c hc => ?_))
      exact ih c hc fun x hx => hplain x (Node.mem_flatten.mpr (.inr ⟨c, hc, hx⟩))

/-! ### Extended trees -/

/-- **The root stays, and its children are what the segments of the top level become.** -/
theorem exists_segments {source : Option (List Char)} {tree ext : Node}
    (h : ofGeneric source tree = .ok ext) :
    ∃ (segs : List Segment) (pieces : List (List Node)),
      segs.flatMap Segment.taken = tree.children ∧
      List.Forall₂ (Becomes (source.map Document.ofText) tree.position) segs pieces ∧
      ext = .branch tree.head pieces.flatten := by
  obtain ⟨hv, children, hc, hr⟩ := ofGeneric_eq_ok h
  obtain ⟨segs, hsegs, rfl⟩ := extractStatements_eq_ok_iff.mp hc
  have hroot : tree.head.kind = "root" := (Node.validate_eq_ok_iff.mp hv).1
  cases reclassify_eq_ok_iff.mp hr with
  | raw hk _ => exact absurd (hroot.symm.trans hk) (by decide)
  | @branch _ _ _ ms hk hms =>
    rw [Option.or_none, reclassifiedList_iff] at hms
    have hlist : reclassifyList (source.map Document.ofText) tree.position
        (segs.flatMap Segment.written) = .ok ms := by
      simp only [reclassifyList_eq_ok_iff, reclassify_eq_ok_iff]
      exact hms
    obtain ⟨pieces, hpieces, rfl⟩ := exists_pieces hsegs.sound hlist
    exact ⟨segs, pieces, hsegs.flatMap_taken, hpieces, rfl⟩

/-- A node of the new top level is a statement, or comes from a child of the root, whose nodes have kinds
of parsed documents only. -/
theorem exists_reclassified {source : Option (List Char)} {tree ext c : Node}
    (h : ofGeneric source tree = .ok ext) (hc : c ∈ ext.children) :
    IsStatement c ∨ ∃ n ∈ tree.children, Reclassified (source.map Document.ofText) tree.position n c ∧
      ∀ y ∈ n.flatten, y.kind ∈ Vocabulary.generic := by
  obtain ⟨hv, -⟩ := ofGeneric_eq_ok h
  obtain ⟨-, hkinds⟩ := Node.validate_eq_ok_iff.mp hv
  obtain ⟨segs, pieces, htaken, hpieces, rfl⟩ := exists_segments h
  refine (exists_of_mem_pieces hpieces hc).imp_right ?_
  rintro ⟨n, hn, hm⟩
  rw [htaken] at hn
  exact ⟨n, hn, hm, fun y hy => hkinds y (mem_flatten.mpr (.inr ⟨n, hn, hy⟩))⟩

theorem kind_of_mem_extract {doc : Option Document} {tree : Node} {children : List Node}
    (hv : tree.validate Vocabulary.generic "parse" = .ok ())
    (hc : extractStatements doc tree.children = .ok children) {y : Node}
    (hy : y ∈ (Node.branch tree.head children).flatten) :
    y.kind ∈ Vocabulary.generic ∨ y.kind = "import" ∨ y.kind = "export" := by
  obtain ⟨hroot, hkinds⟩ := Node.validate_eq_ok_iff.mp hv
  rcases cases_of_mem_extract hc hy with hhead | hy | hw
  · have hkind : y.kind = "root" := (congrArg NodeHead.kind hhead).trans hroot
    rw [hkind]
    exact .inl (by decide)
  · exact .inl (hkinds y hy)
  · obtain ⟨h, rfl, hkind⟩ := hw.isStatement
    exact .inr hkind

/-- **The check of an extended tree never fails.** -/
theorem validate_extended {doc : Option Document} {tree ext : Node} {children : List Node}
    (hv : tree.validate Vocabulary.generic "parse" = .ok ())
    (hc : extractStatements doc tree.children = .ok children)
    (hr : reclassify doc none (.branch tree.head children) = .ok ext) :
    ext.validate Vocabulary.extended "stage1" = .ok () := by
  have hroot : tree.head.kind = "root" := (Node.validate_eq_ok_iff.mp hv).1
  refine Node.validate_eq_ok_iff.mpr ⟨?_, fun x hx => ?_⟩
  · cases reclassify_eq_ok_iff.mp hr with
    | raw hk _ => exact absurd (hroot.symm.trans hk) (by decide)
    | branch _ _ => exact hroot
  · rcases kind_of_mem_reclassify hr hx with (hk | hk) | ⟨hne, y, hy, hk⟩
    · rw [hk]; decide
    · rw [hk]; decide
    · rw [← hk] at hne ⊢
      rw [Vocabulary.extended, List.mem_append, List.mem_filter]
      rcases kind_of_mem_extract hv hc hy with hg | hs | hs
      · exact .inl ⟨hg, bne_iff_ne.mpr hne⟩
      · exact .inr (by rw [hs]; decide)
      · exact .inr (by rw [hs]; decide)

theorem not_statement_of_below {source : Option (List Char)} {tree ext : Node}
    (h : ofGeneric source tree = .ok ext) {c x : Node} (hc : c ∈ ext.children)
    (hx : x ∈ flattenStack c.children) : x.kind ≠ "import" ∧ x.kind ≠ "export" := by
  rcases exists_reclassified h hc with ⟨h, rfl, -⟩ | ⟨n, hn, hm, hkinds⟩
  · rw [Node.children, Node.flattenStack_nil] at hx
    cases hx
  · have hxc : x ∈ c.flatten := by
      rw [flatten_eq]
      exact List.mem_cons_of_mem c hx
    rcases kind_of_mem_reclassify (reclassify_eq_ok_iff.mpr hm) hxc with
      (hk | hk) | ⟨-, y, hy, hk⟩
    · rw [hk]; decide
    · rw [hk]; decide
    · have hgeneric : x.kind ∈ Vocabulary.generic := hk ▸ hkinds y hy
      constructor <;> intro heq <;> rw [heq] at hgeneric <;> exact absurd hgeneric (by decide)

/-- **Extension is additive and keeps the order.**

* The top level is cut into consecutive segments; the new one is what they become, in the same order.
  No raw markup is left, and statements stand at the top level only.
* The check at the end of the stage never fails. -/
theorem extension_is_additive :
    (∀ (source : Option (List Char)) (head : NodeHead) (children : List Node) (ext : Node),
        ofGeneric source (.branch head children) = .ok ext →
          (∃ (segs : List Segment) (pieces : List (List Node)),
            segs.flatMap Segment.taken = children ∧
            List.Forall₂ (Becomes (source.map Document.ofText) head.position) segs pieces ∧
            ext = .branch head pieces.flatten) ∧
          (∀ x ∈ ext.flatten, x.kind ≠ "html") ∧
          ext.kind = "root" ∧
          ∀ c ∈ ext.children, ∀ x ∈ flattenStack c.children,
            x.kind ≠ "import" ∧ x.kind ≠ "export") ∧
      ∀ (doc : Option Document) (tree ext : Node) (children : List Node),
        tree.validate Vocabulary.generic "parse" = .ok () →
        extractStatements doc tree.children = .ok children →
        reclassify doc none (.branch tree.head children) = .ok ext →
          ext.validate Vocabulary.extended "stage1" = .ok () := by
  constructor
  · intro source head children ext h
    obtain ⟨hv, _, hc, hr⟩ := ofGeneric_eq_ok h
    obtain ⟨hroot, hkinds⟩ := Node.validate_eq_ok_iff.mp (validate_extended hv hc hr)
    refine ⟨exists_segments h, fun x hx heq => ?_, hroot, fun c hc x hx => ?_⟩
    · have hkind := hkinds x hx
      rw [heq] at hkind
      exact absurd hkind (by decide)
    · exact not_statement_of_below h hc hx
  · intro doc tree ext children hv hc hr
    exact validate_extended hv hc hr

/-- An import, and a quotation with a piece of raw markup in it. -/
def importAndMarkup : Node :=
  .ofChildren
    [.branch { kind := "paragraph" } [.leaf { kind := "text", value := "import a from 'b'" }],
     .branch { kind := "blockquote" } [.leaf { kind := "html", value := "<a>x</a>" }]]

/-- An import and an element below the top level. -/
theorem extension_is_additive_import_markup :
    ∃ (ext : Node) (children : List Node),
      ofGeneric none importAndMarkup = .ok ext ∧
      ext.flatten.map Node.kind = ["root", "import", "blockquote", "jsx", "text"] ∧
      (∃ (segs : List Segment) (pieces : List (List Node)),
        segs.flatMap Segment.taken = importAndMarkup.children ∧
        List.Forall₂ (Becomes none none) segs pieces ∧
        ext = .branch importAndMarkup.head pieces.flatten) ∧
      importAndMarkup.validate Vocabulary.generic "parse" = .ok () ∧
      extractStatements none importAndMarkup.children = .ok children ∧
      reclassify none none (.branch importAndMarkup.head children) = .ok ext ∧
      ext.validate Vocabulary.extended "stage1" = .ok () := by
  have hkinds : (ofGeneric none importAndMarkup).toOption.map
      (fun ext => ext.flatten.map Node.kind) =
      some ["root", "import", "blockquote", "jsx", "text"] := by
    decide +kernel
  obtain ⟨ext, hext, hkinds⟩ := Option.map_eq_some_iff.mp hkinds
  have h := eq_ok_of_toOption hext
  obtain ⟨hv, children, hc, hr⟩ := ofGeneric_eq_ok h
  refine ⟨ext, children, h, hkinds, ?_, hv, hc, hr, ?_⟩
  · exact (extension_is_additive.1 none _ importAndMarkup.children ext h).1
  · exact extension_is_additive.2 none importAndMarkup ext children hv hc hr

/-- Raw markup without a value gets one: its element has the empty text. -/
theorem extension_gives_empty_value :
    ∃ ext : Node, ofGeneric none (.ofChildren [.leaf { kind := "html", value := none }]) = .ok ext ∧
      ext.children.map (fun c => (c.kind, c.value)) = [("jsx", some "")] := by
  have hvalues : (ofGeneric none (.ofChildren [.leaf { kind := "html", value := none }])).toOption.map
      (fun ext => ext.children.map fun c => (c.kind, c.value)) = some [("jsx", some "")] := by
    decide +kernel
  obtain ⟨ext, hext, hvalues⟩ := Option.map_eq_some_iff.mp hvalues
  exact ⟨ext, eq_ok_of_toOption hext, hvalues⟩

end Mdx.Extended
