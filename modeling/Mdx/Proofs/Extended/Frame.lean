import Mdx.Proofs.Extended.Additive
import Mdx.Proofs.Generic.Frame

/-!
# Lists and tables of extended trees

Extension changes nothing about the lists and tables of a document but what raw markup becomes in them.  A
list stays as it is, and each of its items has as many paragraphs as before; a table stays as it is, and
each of its rows has as many cells (`matches_of_reclassified`).  At the top level, some of the nodes may give
way to statements, and the lists and tables in the others are what is left (`matches_of_pieces`).
-/

namespace Mdx.Extended

open Mdx.Generic (Formed Inner everywhere_formed_of_inner isFrame isParagraph paragraphs select_of_inner
  width)
open Mdx.Node (Everywhere everywhere_cons everywhere_nil mem_flatten mem_flattenStack
  mem_flattenStack_self select select_append select_cons_of_neg select_cons_of_pos select_nil)

section Reclassify

variable {doc : Option Document} {nearest : Option Position} {n m : Node}

/-! ### A reclassified node -/

theorem inner_of_raw (h : Reclassified doc nearest n m) (hk : n.kind = "html") : Everywhere Inner [m] := by
  intro x hx
  have hm := (reclassified_raw_iff hk).mp h
  have hx : x ∈ m.flatten := hx
  rcases kind_of_mem_elementOf hm hx with hkind | hkind
  · show x.kind ∉ Generic.blockKinds
    rw [hkind]
    decide
  · show x.kind ∉ Generic.blockKinds
    rw [hkind]
    decide

/-- A node that is no raw markup keeps its head, and its children are reclassified. -/
theorem Reclassified.of_ne (h : Reclassified doc nearest n m) (hk : n.kind ≠ "html") :
    n.head = m.head ∧ ∃ inner : Option Position,
      List.Forall₂ (Reclassified doc inner) n.children m.children := by
  cases h with
  | raw hraw _ => exact absurd hraw hk
  | leaf _ => exact ⟨rfl, nearest, .nil⟩
  | branch _ hc => exact ⟨rfl, _, reclassifiedList_iff.mp hc⟩

theorem Reclassified.kind_iff (h : Reclassified doc nearest n m) (kind : String) (hraw : kind ≠ "html")
    (helement : kind ≠ "jsx") : m.kind = kind ↔ n.kind = kind := by
  by_cases hk : n.kind = "html"
  · have hm : m.kind = "jsx" := by
      cases h with
      | raw _ _ => rfl
      | leaf hne => exact absurd hk hne
      | branch hne _ => exact absurd hk hne
    rw [hk, hm]
    exact iff_of_false (Ne.symm helement) (Ne.symm hraw)
  · have hm : n.kind = m.kind := congrArg NodeHead.kind (h.of_ne hk).1
    rw [hm]

theorem countP_paragraph_reclassified {ns ms : List Node}
    (h : List.Forall₂ (Reclassified doc nearest) ns ms) : ns.countP isParagraph = ms.countP isParagraph := by
  induction h with
  | nil => rfl
  | cons hn _ ih =>
    have hkind := hn.kind_iff "paragraph" (by decide) (by decide)
    rw [List.countP_cons, List.countP_cons, ih, isParagraph, isParagraph, decide_eq_decide.mpr hkind.symm]

theorem Reclassified.paragraphs_eq (h : Reclassified doc nearest n m) (hf : Formed n) :
    paragraphs n = paragraphs m := by
  have hnone : ∀ {x : Node}, Everywhere Inner x.children → paragraphs x = 0 := by
    intro x hx
    refine List.countP_eq_zero.mpr fun c hc hparagraph => ?_
    exact (hx c (mem_flattenStack_self hc)).ne (by decide) (of_decide_eq_true hparagraph)
  by_cases hk : n.kind = "html"
  · have hn : Everywhere Inner n.children := hf.inner (by rw [hk]; decide)
    obtain ⟨-, hm, -⟩ := everywhere_cons.mp (inner_of_raw h hk)
    rw [hnone hn, hnone hm]
  · obtain ⟨-, inner, hc⟩ := h.of_ne hk
    exact countP_paragraph_reclassified hc

/-! ### Lists and tables -/

/-- Two lists with as many paragraphs in each item, or two tables with as many cells in each row. -/
structure SameFrame (n m : Node) : Prop where
  head : n.head = m.head
  paragraphs : n.children.map paragraphs = m.children.map paragraphs
  widths : n.kind = "table" → n.children.map width = m.children.map width

/-- The lists and tables of the first nodes are those of the second, which are well formed. -/
structure Matches (ns ms : List Node) : Prop where
  frames : List.Forall₂ SameFrame (select isFrame ns) (select isFrame ms)
  formed : Everywhere Formed ms

theorem matches_nil : Matches [] [] := by
  refine ⟨?_, everywhere_nil⟩
  rw [select_nil]
  exact .nil

theorem Matches.append {ns ns' ms ms' : List Node} (h : Matches ns ms) (h' : Matches ns' ms') :
    Matches (ns ++ ns') (ms ++ ms') := by
  refine ⟨?_, h.formed.append h'.formed⟩
  rw [select_append, select_append]
  exact List.rel_append h.frames h'.frames

theorem matches_of_forall₂ {R : Node → Node → Prop} {ns ms : List Node} (h : List.Forall₂ R ns ms)
    (hR : ∀ n ∈ ns, ∀ m : Node, R n m → Matches [n] [m]) : Matches ns ms := by
  induction h with
  | nil => exact matches_nil
  | cons hn _ ih =>
    obtain ⟨hfirst, hrest⟩ := List.forall_mem_cons.mp hR
    exact (hfirst _ hn).append (ih hrest)

theorem map_eq_of_forall₂ {β : Type} {R : Node → Node → Prop} {f : Node → β} {ns ms : List Node}
    (h : List.Forall₂ R ns ms) (hR : ∀ n ∈ ns, ∀ m : Node, R n m → f n = f m) : ns.map f = ms.map f := by
  induction h with
  | nil => rfl
  | cons hn _ ih =>
    obtain ⟨hfirst, hrest⟩ := List.forall_mem_cons.mp hR
    rw [List.map_cons, List.map_cons, hfirst _ hn, ih hrest]

theorem sameFrame_of_reclassified (h : Reclassified doc nearest n m) (hk : n.kind ≠ "html")
    (hf : Everywhere Formed [n]) : SameFrame n m := by
  obtain ⟨hn, hchildren, -⟩ := everywhere_cons.mp hf
  obtain ⟨hhead, inner, hc⟩ := h.of_ne hk
  refine ⟨hhead, map_eq_of_forall₂ hc fun c hmem d hd => ?_, fun ht => ?_⟩
  · exact hd.paragraphs_eq (hchildren c (mem_flattenStack_self hmem))
  · refine map_eq_of_forall₂ hc fun c hmem d hd => ?_
    -- a row is no raw markup, so its cells are reclassified one by one
    have hrow : c.kind ≠ "html" := by
      rw [hn.rows ht c hmem]
      decide
    obtain ⟨-, inner', hcells⟩ := hd.of_ne hrow
    exact hcells.length_eq

theorem formed_of_reclassified (h : Reclassified doc nearest n m) (hk : n.kind ≠ "html") (hf : Formed n) :
    Formed m := by
  obtain ⟨hhead, inner, hc⟩ := h.of_ne hk
  have hkind : m.kind = n.kind := (congrArg NodeHead.kind hhead).symm
  refine ⟨by rw [hkind]; exact hf.noElement, fun hcontainer => ?_, fun d hd => ?_, fun ht d hd => ?_⟩
  · rw [hkind] at hcontainer
    intro x hx
    obtain ⟨d, hd, hxd⟩ := mem_flattenStack.mp hx
    obtain ⟨c, hcmem, hcd⟩ := exists_of_mem_right hc hd
    rcases kind_of_mem_reclassify (reclassify_eq_ok_iff.mpr hcd) hxd with (hjsx | htext) | ⟨-, y, hy, hyx⟩
    · show x.kind ∉ Generic.blockKinds
      rw [hjsx]
      decide
    · show x.kind ∉ Generic.blockKinds
      rw [htext]
      decide
    · show x.kind ∉ Generic.blockKinds
      rw [← hyx]
      exact hf.inner hcontainer y (mem_flattenStack.mpr ⟨c, hcmem, hy⟩)
  · obtain ⟨c, hcmem, hcd⟩ := exists_of_mem_right hc hd
    rw [hcd.kind_iff "listItem" (by decide) (by decide), hf.items c hcmem, hkind]
  · obtain ⟨c, hcmem, hcd⟩ := exists_of_mem_right hc hd
    rw [hkind] at ht
    exact (hcd.kind_iff "tableRow" (by decide) (by decide)).mpr (hf.rows ht c hcmem)

/-- **Reclassification keeps lists and tables.** -/
theorem matches_of_reclassified (h : Reclassified doc nearest n m) (hf : Everywhere Formed [n]) :
    Matches [n] [m] := by
  induction n using Node.induction generalizing nearest m with
  | step n ih =>
    obtain ⟨hn, hchildren, -⟩ := everywhere_cons.mp hf
    by_cases hk : n.kind = "html"
    · have hinner := inner_of_raw h hk
      have hframe : isFrame n = false := by simp [isFrame, hk]
      refine ⟨?_, everywhere_formed_of_inner hinner⟩
      rw [select_of_inner hinner, select_cons_of_neg hframe, select_nil,
        select_of_inner (hn.inner (by rw [hk]; decide))]
      exact .nil
    · obtain ⟨hhead, inner, hc⟩ := h.of_ne hk
      have hbelow : Matches n.children m.children := by
        refine matches_of_forall₂ hc fun c hmem d hd => ih c hmem hd fun x hx => ?_
        exact hchildren x (mem_flattenStack.mpr ⟨c, hmem, hx⟩)
      have hkind : n.kind = m.kind := congrArg NodeHead.kind hhead
      have hformed : Formed m := formed_of_reclassified h hk hn
      refine ⟨?_, everywhere_cons.mpr ⟨hformed, hbelow.formed, everywhere_nil⟩⟩
      cases hframe : isFrame n with
      | true =>
        have hframe' : isFrame m = true := by rwa [isFrame, ← hkind]
        rw [select_cons_of_pos hframe, select_cons_of_pos hframe', select_nil, List.append_nil,
          List.append_nil]
        exact .cons (sameFrame_of_reclassified h hk hf) hbelow.frames
      | false =>
        have hframe' : isFrame m = false := by rwa [isFrame, ← hkind]
        rw [select_cons_of_neg hframe, select_cons_of_neg hframe', select_nil, List.append_nil,
          List.append_nil]
        exact hbelow.frames

/-! ### The top level -/

theorem IsStatement.inner {s : Node} (hs : IsStatement s) : Everywhere Inner [s] := by
  obtain ⟨h, rfl, hkind⟩ := hs
  refine everywhere_cons.mpr ⟨?_, everywhere_nil, everywhere_nil⟩
  show h.kind ∉ Generic.blockKinds
  rcases hkind with hkind | hkind <;> rw [hkind] <;> decide

theorem Becomes.matches {seg : Segment} {piece : List Node} (h : Becomes doc nearest seg piece)
    (hf : Everywhere Formed seg.keeps) : Matches seg.keeps piece := by
  cases h with
  | kept h => exact matches_of_reclassified h hf
  | run hp hne hs =>
    have hinner : Everywhere Inner piece := by
      intro x hx
      obtain ⟨s, hmem, hxs⟩ := mem_flattenStack.mp hx
      exact (hs s hmem).inner x hxs
    refine ⟨?_, everywhere_formed_of_inner hinner⟩
    rw [select_of_inner hinner, Segment.keeps, select_nil]
    exact .nil

/-- **The lists and tables of an extended tree** are those of the nodes that its top level keeps. -/
theorem matches_of_pieces {segs : List Segment} {pieces : List (List Node)}
    (h : List.Forall₂ (Becomes doc nearest) segs pieces)
    (hf : Everywhere Formed (segs.flatMap Segment.keeps)) :
    Matches (segs.flatMap Segment.keeps) pieces.flatten := by
  induction h with
  | nil => exact matches_nil
  | cons hseg _ ih =>
    rw [List.flatMap_cons] at hf ⊢
    obtain ⟨hfirst, hrest⟩ := Node.everywhere_append.mp hf
    rw [List.flatten_cons]
    exact (hseg.matches hfirst).append (ih hrest)

theorem keeps_sublist (segs : List Segment) :
    (segs.flatMap Segment.keeps).Sublist (segs.flatMap Segment.taken) := by
  induction segs with
  | nil => exact .slnil
  | cons seg rest ih =>
    rw [List.flatMap_cons, List.flatMap_cons]
    refine List.Sublist.append ?_ ih
    cases seg with
    | kept n => exact List.Sublist.refl _
    | run first more statements => exact List.nil_sublist _

/-- Without statements, all nodes are kept. -/
theorem keeps_eq_taken {segs : List Segment} {pieces : List (List Node)}
    (h : List.Forall₂ (Becomes doc nearest) segs pieces)
    (hs : ∀ c ∈ pieces.flatten, ¬IsStatement c) :
    segs.flatMap Segment.keeps = segs.flatMap Segment.taken := by
  induction h with
  | nil => rfl
  | cons hseg _ ih =>
    rw [List.flatten_cons] at hs
    obtain ⟨hfirst, hrest⟩ := List.forall_mem_append.mp hs
    rw [List.flatMap_cons, List.flatMap_cons, ih hrest]
    cases hseg with
    | kept h => rfl
    | run hp hne hstatements =>
      obtain ⟨s, hmem⟩ := List.exists_mem_of_ne_nil _ hne
      exact absurd (hstatements s hmem) (hfirst s hmem)

end Reclassify

end Mdx.Extended
