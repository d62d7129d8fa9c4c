import Mdx.Proofs.Element.Lossless
import Mdx.Proofs.Extended.Additive
import Mdx.Proofs.Extended.Coverage

/-!
# Positions of new nodes are exact

The first stage makes two sorts of nodes: statements, and what lies in the elements made of raw markup.
A position that it gives to such a node is that of the node's value in the document.

For what lies in an element the offsets go a long way: from a token of the raw value, by the offset at
which the value stands in the document, through the line index.  `Laid src a ns b` is what comes out:
between the offsets `a` and `b` the nodes lie one after another, each at the piece of the document that
is its value, and the nodes in each of them lie so between its own ends.  All that is said about the
positions in elements follows from it by induction.
-/

namespace Mdx.Element

open Mdx.Node (flattenStack mem_flattenStack_cons)

/-! ### Nodes in a text -/

/-- From one offset of a text to another, nodes lie one after another, each at the piece that is its
value, and so do the nodes in each of them. -/
inductive Laid (src : List Char) : Nat → List Node → Nat → Prop
  | nil {a b : Nat} (h : a ≤ b) : Laid src a [] b
  | cons {a b i j : Nat} {n : Node} {p : Position} {rest : List Node} (hp : n.position = some p)
      (hi : p.start.offset = i) (hj : p.stop.offset = j) (ha : a ≤ i) (hlt : i < j)
      (hv : n.value = some (String.ofList (slice src i j))) (hc : Laid src i n.children j)
      (hr : Laid src j rest b) : Laid src a (n :: rest) b

namespace Laid

variable {src : List Char} {a b : Nat} {ns : List Node}

theorem mono {a' b' : Nat} (h : Laid src a ns b) (ha : a' ≤ a) (hb : b ≤ b') :
    Laid src a' ns b' := by
  induction h generalizing a' with
  | nil h => exact .nil (by omega)
  | cons hp hi hj ha' hlt hv hc hr _ ih => exact .cons hp hi hj (by omega) hlt hv hc (ih (by omega) hb)

theorem le (h : Laid src a ns b) : a ≤ b := by
  induction h with
  | nil h => exact h
  | cons _ _ _ ha hlt _ _ _ _ ih => omega

/-- **Every node at any depth lies at the piece that is its value**, and what is in it lies within
its ends. -/
theorem exists_of_mem (h : Laid src a ns b) {x : Node} (hx : x ∈ flattenStack ns) :
    ∃ (p : Position) (i j : Nat), x.position = some p ∧ p.start.offset = i ∧ p.stop.offset = j ∧
      a ≤ i ∧ i < j ∧ j ≤ b ∧ x.value = some (String.ofList (slice src i j)) ∧
      Laid src i x.children j := by
  induction h with
  | nil h =>
    rw [Node.flattenStack_nil] at hx
    cases hx
  | @cons a b i j n p rest hp hi hj ha hlt hv hc hr ihc ihr =>
    have hjb := hr.le
    rcases mem_flattenStack_cons.mp hx with rfl | hx | hx
    · exact ⟨p, i, j, hp, hi, hj, ha, hlt, hjb, hv, hc⟩
    · obtain ⟨q, k, l, hq, hk, hl, h₁, h₂, h₃, hrest⟩ := ihc hx
      exact ⟨q, k, l, hq, hk, hl, by omega, h₂, by omega, hrest⟩
    · obtain ⟨q, k, l, hq, hk, hl, h₁, h₂, h₃, hrest⟩ := ihr hx
      exact ⟨q, k, l, hq, hk, hl, by omega, h₂, h₃, hrest⟩

end Laid

/-! ### Fragments in a text -/

/-- Markup that stands in a text from the offset `base` on. -/
structure Stands (src value : List Char) (base : Nat) : Prop where
  inside : base + value.length ≤ src.length
  same : slice src base (base + value.length) = value

theorem Stands.slice_eq {src value : List Char} {base i j : Nat} (h : Stands src value base)
    (hj : j ≤ value.length) : slice value i j = slice src (base + i) (base + j) := by
  have hpiece : slice (slice src base (base + value.length)) (base + i - base) (base + j - base) =
      slice src (base + i) (base + j) := slice_slice (by omega) (by omega)
  rwa [h.same, Nat.add_sub_cancel_left, Nat.add_sub_cancel_left] at hpiece

/-- The place of markup that stands in a text. -/
def placeAt (src : List Char) (base : Nat) (fallback : Option Position) : Placement where
  index := some (LineIndex.ofText src)
  base := base
  fallback := fallback

section Fragment

variable {src value : List Char} {base : Nat} {fallback : Option Position}

theorem Stands.laid_cons (h : Stands src value base) {a i j b : Nat} {n : Node} {rest : List Node}
    (hp : n.position = (placeAt src base fallback).span i j)
    (hv : n.value = some (String.ofList (slice value i j))) (ha : a ≤ i) (hlt : i < j)
    (hj : j ≤ value.length) (hc : Laid src (base + i) n.children (base + j))
    (hr : Laid src (base + j) rest b) : Laid src (base + a) (n :: rest) b := by
  have hle := h.inside
  have hoff : ∀ k : Nat, k ≤ value.length →
      ((LineIndex.ofText src).point ((base : Int) + k)).offset = (base + k : Nat) := by
    intro k hk
    rw [← Int.natCast_add]
    exact LineIndex.offset_point (by omega)
  refine .cons hp (hoff i (by omega)) (hoff j hj) (by omega) (by omega) ?_ hc hr
  rw [hv, h.slice_eq hj]

/-- **The nodes of a fragment lie in the text that its markup stands in.** -/
theorem Stands.laid (h : Stands src value base) {ts : List Token} (d : Fragment ts) : ∀ {a b : Nat},
    Tiles a ts b → b ≤ value.length →
      Laid src (base + a) (d.denote value (placeAt src base fallback)) (base + b) := by
  induction d with
  | nil =>
    intro a b ht _
    cases ht
    exact .nil (Nat.le_refl _)
  | @text t ts hk rest ih =>
    intro a b ht hb
    cases ht with
    | cons hs hlt hrest =>
      subst hs
      have hle := hrest.le
      rw [Fragment.denote]
      split
      · exact (ih hrest hb).mono (by omega) (Nat.le_refl _)
      · exact h.laid_cons rfl rfl (Nat.le_refl _) hlt (by omega) (.nil (by omega)) (ih hrest hb)
  | @comment t ts hk rest ih =>
    intro a b ht hb
    cases ht with
    | cons hs hlt hrest => exact (ih hrest hb).mono (by omega) (Nat.le_refl _)
  | @selfClosing t ts hk rest ih =>
    intro a b ht hb
    cases ht with
    | cons hs hlt hrest =>
      subst hs
      have hle := hrest.le
      exact h.laid_cons rfl rfl (Nat.le_refl _) hlt (by omega) (.nil (by omega)) (ih hrest hb)
  | @element first last inner ts hf hl hn body rest ihb ihr =>
    intro a b ht hb
    cases ht with
    | cons hs hlt hrest =>
      subst hs
      obtain ⟨m, hinner, hlast⟩ := hrest.of_append
      cases hlast with
      | cons hs' hlt' hrest' =>
        subst hs'
        have hle := hinner.le
        have hle' := hrest'.le
        -- what is in the element lies between its two tags, and so within its ends
        have hbody := ihb hinner (by omega)
        exact h.laid_cons rfl rfl (Nat.le_refl _) (by omega) (by omega)
          (hbody.mono (by omega) (by omega)) (ihr hrest' hb)

end Fragment

theorem Stands.exists_laid {src value : List Char} {base : Nat} (h : Stands src value base)
    {fallback : Option Position} {cs : List Node}
    (hp : parseChildren value (placeAt src base fallback) = .ok cs) :
    ∃ a b : Nat, Laid src a cs b ∧ b ≤ src.length := by
  rw [parseChildren_eq] at hp
  obtain ⟨ns, hns, rfl⟩ := exists_ok_of_map hp
  obtain ⟨hlex, d, rfl⟩ := parseFragment_eq_ok_iff.mp hns
  have hlaid : Laid src (base + 0) (d.denote value (placeAt src base fallback))
      (base + value.length) := h.laid d (tokens_tiles_of_none hlex) (Nat.le_refl _)
  generalize d.denote value (placeAt src base fallback) = ns at hlaid
  unfold contentOf
  split
  · -- an only element gives way to what is in it
    split
    · cases hlaid with
      | cons hq hi hj ha hlt hv hc hr =>
        have hjb := hr.le
        have hle := h.inside
        exact ⟨_, _, hc, by omega⟩
    · exact ⟨_, _, hlaid, h.inside⟩
  · exact ⟨_, _, hlaid, h.inside⟩

theorem position_eq_none {value : List Char} {place : Placement} (hi : place.index = none)
    {cs : List Node} (hp : parseChildren value place = .ok cs) {x : Node}
    (hx : x ∈ flattenStack cs) : x.position = none := by
  obtain ⟨ns, hns, hin⟩ := exists_parse_of_mem_parseChildren hp hx
  obtain ⟨-, d, rfl⟩ := parseFragment_eq_ok_iff.mp hns
  obtain ⟨-, i, j, hpos⟩ := d.head_of_mem_denote hin
  rw [hpos, Placement.span, hi]
  rfl

end Mdx.Element

namespace Mdx.Extended

open Mdx.Element
open Mdx.Node (flatten_eq flattenStack)
open Mdx.Script (Statement)

/-! ### Exact positions -/

/-- If a node has a position, it is in the text, and the value of the node is what stands there. -/
def Located (src : List Char) (n : Node) : Prop :=
  ∀ p : Position, n.position = some p →
    0 ≤ p.start.offset ∧ p.start.offset < p.stop.offset ∧ p.stop.offset ≤ src.length ∧
      n.value = some (String.ofList (signedSlice src p.start.offset p.stop.offset))

/-- One node ends before the other starts, if both have a position. -/
def Precedes (c d : Node) : Prop :=
  ∀ p q : Position, c.position = some p → d.position = some q → p.stop.offset ≤ q.start.offset

/-- One node lies within the ends of the other, if both have a position. -/
def Within (c x : Node) : Prop :=
  ∀ p q : Position, c.position = some p → x.position = some q →
    q.start.offset ≤ p.start.offset ∧ p.stop.offset ≤ q.stop.offset

/-- The value of a node stands in the text from the start of its position on. -/
def Verbatim (src : List Char) (n : Node) : Prop :=
  ∃ p : Position, n.position = some p ∧
    signedSlice src p.start.offset (p.start.offset + n.text.toList.length) = n.text.toList

theorem signedSlice_natCast (src : List Char) (i j : Nat) : signedSlice src i j = slice src i j := by
  have hoff : ∀ k : Nat, resolveOffset src.length (k : Int) = k := by
    intro k
    rw [resolveOffset, if_neg (by omega), Int.toNat_natCast]
  rw [signedSlice, hoff, hoff]

theorem located_of_offsets {src : List Char} {n : Node} {p : Position} {i j : Nat}
    (hp : n.position = some p) (hi : p.start.offset = i) (hj : p.stop.offset = j) (hlt : i < j)
    (hle : j ≤ src.length) (hv : n.value = some (String.ofList (slice src i j))) :
    Located src n := by
  intro q hq
  obtain rfl : p = q := Option.some.inj (hp.symm.trans hq)
  rw [hi, hj, signedSlice_natCast]
  exact ⟨by omega, by omega, by omega, hv⟩

section Laid

variable {src : List Char} {a b : Nat} {ns : List Node}

theorem located_of_laid (h : Laid src a ns b) (hb : b ≤ src.length) {x : Node}
    (hx : x ∈ flattenStack ns) : Located src x := by
  obtain ⟨p, i, j, hp, hi, hj, -, hlt, hle, hv, -⟩ := h.exists_of_mem hx
  exact located_of_offsets hp hi hj hlt (by omega) hv

theorem pairwise_of_laid (h : Laid src a ns b) : ns.Pairwise Precedes := by
  induction h with
  | nil h => exact .nil
  | @cons a b i j n p rest hp hi hj ha hlt hv hc hr _ ih =>
    refine .cons (fun d hd q r hq hr' => ?_) ih
    obtain ⟨r, k, l, hdr, hk, -, hjk, -⟩ := hr.exists_of_mem (Node.mem_flattenStack_self hd)
    obtain rfl : p = q := Option.some.inj (hp.symm.trans hq)
    obtain rfl := Option.some.inj (hdr.symm.trans hr')
    rw [hj, hk]
    omega

theorem within_of_laid (h : Laid src a ns b) {x : Node} (hx : x ∈ flattenStack ns) :
    ∀ c ∈ x.children, Within c x := by
  obtain ⟨p, i, j, hp, hi, hj, -, -, -, -, hc⟩ := h.exists_of_mem hx
  intro c hcx q r hq hr
  obtain ⟨s, k, l, hcs, hk, hl, hik, -, hlj, -⟩ := hc.exists_of_mem (Node.mem_flattenStack_self hcx)
  obtain rfl : p = r := Option.some.inj (hp.symm.trans hr)
  obtain rfl : s = q := Option.some.inj (hcs.symm.trans hq)
  rw [hi, hj, hk, hl]
  omega

end Laid

/-! ### Statements -/

theorem located_sourceNode {src : List Char} {st : Statement} (hlt : st.start < st.stop)
    (hle : st.stop ≤ src.length) : Located src (sourceNode (.ofText src) st) :=
  located_of_offsets rfl (LineIndex.offset_point (by omega)) (LineIndex.offset_point hle) hlt hle rfl

theorem IsWritten.located {src : List Char} {n : Node} (h : IsWritten (some (.ofText src)) n) :
    Located src n := by
  obtain ⟨text, position, st, rfl, rfl | ⟨d, hdoc, hnode, hlt, hle⟩⟩ := h
  · intro p hp
    cases hp
  · obtain rfl : Document.ofText src = d := Option.some.inj hdoc
    rw [hnode]
    exact located_sourceNode hlt hle

/-! ### Elements -/

section Element

variable {src : List Char} {nearest : Option Position} {y m : Node}

theorem stands_of_verbatim {p : Position} {value : List Char} (h0 : 0 ≤ p.start.offset)
    (hne : value ≠ [])
    (h : signedSlice src p.start.offset (p.start.offset + value.length) = value) :
    Stands src value p.start.offset.toNat := by
  obtain ⟨k, hk⟩ := Int.eq_ofNat_of_zero_le h0
  rw [hk, ← Int.natCast_add, signedSlice_natCast] at h
  rw [hk, Int.toNat_natCast]
  have hlen := congrArg List.length h
  have hpos := List.length_pos_iff.mpr hne
  rw [slice, List.length_take, List.length_drop] at hlen
  exact ⟨by omega, h⟩

theorem placement_of_verbatim {p : Position} (hp : y.position = some p) (h0 : 0 ≤ p.start.offset)
    (h : signedSlice src p.start.offset (p.start.offset + y.text.toList.length) = y.text.toList) :
    placement (some (.ofText src)) nearest y.head y.text.toList =
      placeAt src p.start.offset.toNat (y.head.position.or nearest) := by
  have hp' : y.head.position = some p := hp
  have htext : (Document.ofText src).text = src := rfl
  simp only [placement, hp', htext, h, if_true, placeAt, Int.toNat_of_nonneg h0]
  rfl

theorem placement_of_not_verbatim (h : ¬Verbatim src y) :
    (placement (some (.ofText src)) nearest y.head y.text.toList).index = none := by
  have htext : (Document.ofText src).text = src := rfl
  cases hp : y.head.position with
  | none => simp only [placement, hp]
  | some p =>
    have hsame : ¬signedSlice src p.start.offset (p.start.offset + y.text.toList.length) =
        y.text.toList := fun hsame => h ⟨p, hp, hsame⟩
    simp only [placement, hp, htext, hsame, if_false]

theorem parseChildren_nil (place : Placement) : parseChildren [] place = .ok [] := by
  have htokens : tokens [] = ([], none) := tokensFrom_nil 0 0
  rw [parseChildren, parseFragment, htokens]
  rfl

/-- **What is read off raw markup lies in the document if the markup does**, and has no positions
otherwise. -/
theorem laid_or_bare (h0 : ∀ p : Position, y.position = some p → 0 ≤ p.start.offset)
    (hm : elementOf (some (.ofText src)) nearest y.head = .ok m) :
    (∃ a b : Nat, Laid src a m.children b ∧ b ≤ src.length) ∨
      ¬Verbatim src m ∧ ∀ x ∈ flattenStack m.children, x.position = none := by
  obtain ⟨cs, hcs, rfl⟩ := elementOf_eq_ok_iff.mp hm
  by_cases hv : Verbatim src y
  · obtain ⟨p, hp, hsame⟩ := hv
    by_cases hne : y.text.toList = []
    · -- no text at all stands anywhere, also past the end of the document, but nothing is read off it
      rw [hne, parseChildren_nil] at hcs
      cases hcs
      exact .inl ⟨0, 0, .nil (Nat.le_refl 0), Nat.zero_le _⟩
    · rw [placement_of_verbatim hp (h0 p hp) hsame] at hcs
      exact .inl ((stands_of_verbatim (h0 p hp) hne hsame).exists_laid hcs)
  · exact .inr ⟨hv, fun x hx => position_eq_none (placement_of_not_verbatim hv) hcs hx⟩

theorem laid_or_bare_of_mem (h0 : ∀ p : Position, y.position = some p → 0 ≤ p.start.offset)
    (hm : elementOf (some (.ofText src)) nearest y.head = .ok m) {n : Node} (hn : n ∈ m.flatten) :
    (∃ a b : Nat, Laid src a n.children b ∧ b ≤ src.length) ∨
      ¬Verbatim src n ∧ ∀ x ∈ flattenStack n.children, x.position = none := by
  have hself := laid_or_bare h0 hm
  rw [flatten_eq] at hn
  rcases List.mem_cons.mp hn with rfl | hn
  · exact hself
  rcases hself with ⟨a, b, hl, hb⟩ | ⟨-, hnone⟩
  · obtain ⟨p, i, j, -, -, -, -, -, hj, -, hc⟩ := hl.exists_of_mem hn
    exact .inl ⟨i, j, hc, by omega⟩
  · refine .inr ⟨?_, fun x hx => hnone x (Node.mem_flattenStack_trans hn hx)⟩
    rintro ⟨p, hp, -⟩
    rw [hnone n hn] at hp
    cases hp

end Element

/-! ### Extended trees -/

section Extended

variable {src : List Char} {tree ext : Node}

theorem located_of_statement (h : ofGeneric (some src) tree = .ok ext) {n : Node}
    (hn : n ∈ ext.flatten) (hk : n.kind = "import" ∨ n.kind = "export") : Located src n := by
  obtain ⟨hv, children, hc, hr⟩ := ofGeneric_eq_ok h
  obtain ⟨hroot, hkinds⟩ := Node.validate_eq_ok_iff.mp hv
  have hgeneric : n.kind ∉ Vocabulary.generic := by
    rcases hk with hk | hk <;> rw [hk] <;> decide
  rcases exists_origin _ _ hr hn with ⟨y, hy, hhead⟩ | ⟨y, -, -, nearest, m, hm, hnm⟩
  · have hkind : n.kind = y.kind := congrArg NodeHead.kind hhead
    rcases cases_of_mem_extract hc hy with hy | hy | hw
    · refine absurd ?_ hgeneric
      rw [hkind, show y.kind = "root" from (congrArg NodeHead.kind hy).trans hroot]
      decide
    · exact absurd (hkind ▸ hkinds y hy) hgeneric
    · intro p hp
      have hvalue : n.value = y.value := congrArg NodeHead.value hhead
      have hposition : n.position = y.position := congrArg NodeHead.position hhead
      rw [hvalue]
      exact hw.located p (hposition ▸ hp)
  · refine absurd ?_ hgeneric
    rcases kind_of_mem_elementOf hm hnm with h' | h'
    · rcases hk with hk | hk <;> rw [hk] at h' <;> exact absurd h' (by decide)
    · rw [h']
      decide

/-- Every element of an extended tree lies in one that is made of raw markup of the document. -/
theorem exists_raw_of_element (h : ofGeneric (some src) tree = .ok ext) {n : Node}
    (hn : n ∈ ext.flatten) (hk : n.kind = "jsx") :
    ∃ y ∈ tree.flatten, ∃ (nearest : Option Position) (m : Node),
      elementOf (some (.ofText src)) nearest y.head = .ok m ∧ n ∈ m.flatten := by
  obtain ⟨hv, children, hc, hr⟩ := ofGeneric_eq_ok h
  obtain ⟨hroot, -⟩ := Node.validate_eq_ok_iff.mp hv
  rcases exists_origin _ _ hr hn with ⟨y, hy, hhead⟩ | ⟨y, hy, hraw, nearest, m, hm, hnm⟩
  · have hkind : n.kind = y.kind := congrArg NodeHead.kind hhead
    exact absurd (hkind.symm.trans hk) (kind_ne_jsx_of_extract hv hc hy)
  · refine ⟨y, ?_, nearest, m, hm, hnm⟩
    rcases cases_of_mem_extract hc hy with hy | hy | hw
    · have hkind : y.kind = "root" := (congrArg NodeHead.kind hy).trans hroot
      exact absurd (hraw.symm.trans hkind) (by decide)
    · exact hy
    · obtain ⟨head, rfl, hstatement⟩ := hw.isStatement
      have hkind : head.kind = "html" := hraw
      rcases hstatement with hs | hs <;> rw [hkind] at hs <;> exact absurd hs (by decide)

end Extended

/-- **The positions that the first stage gives are exact.**  Let the nodes of a document start at no
negative offset.

* The value of every statement that has a position is what stands there in the document.
* The same holds of every node at any depth in an element.  The nodes in one element are disjoint and
  in order, and what is in them lies within their ends.
* All nodes in an element have positions if the value of the element stands at its position. -/
theorem created_positions_are_exact (src : List Char) (tree ext : Node)
    (hoff : ∀ n ∈ tree.flatten, ∀ p : Position, n.position = some p → 0 ≤ p.start.offset)
    (h : ofGeneric (some src) tree = .ok ext) :
    (∀ n ∈ ext.flatten, n.kind = "import" ∨ n.kind = "export" → Located src n) ∧
      ∀ n ∈ ext.flatten, n.kind = "jsx" →
        (∀ x ∈ flattenStack n.children, Located src x) ∧
        n.children.Pairwise Precedes ∧
        (∀ x ∈ flattenStack n.children, ∀ c ∈ x.children, Within c x) ∧
        (Verbatim src n → ∀ x ∈ flattenStack n.children, x.position.isSome = true) := by
  refine ⟨fun n hn hk => located_of_statement h hn hk, fun n hn hk => ?_⟩
  obtain ⟨y, hy, nearest, m, hm, hnm⟩ := exists_raw_of_element h hn hk
  rcases laid_or_bare_of_mem (hoff y hy) hm hnm with ⟨a, b, hl, hb⟩ | ⟨hv, hnone⟩
  · refine ⟨fun x hx => located_of_laid hl hb hx, pairwise_of_laid hl,
      fun x hx => within_of_laid hl hx, fun _ x hx => ?_⟩
    obtain ⟨p, i, j, hp, -⟩ := hl.exists_of_mem hx
    rw [hp]
    rfl
  · refine ⟨fun x hx p hp => ?_, ?_, fun x hx c hc p q hp hq => ?_, fun hv' => absurd hv' hv⟩
    · rw [hnone x hx] at hp
      cases hp
    · refine List.pairwise_of_forall_mem_list fun c hc d hd p q hp hq => ?_
      rw [hnone c (Node.mem_flattenStack_self hc)] at hp
      cases hp
    · rw [hnone x hx] at hq
      cases hq

/-- A statement, and raw markup with an element in an element. -/
def nestedMarkup : List Char :=
  "import a\n\n<b>x<c>z</c>y</b>".toList

/-- The document of the text. -/
def nestedMarkupTree : Node :=
  .branch { kind := "root" }
    [paragraphAt 0 8,
      .leaf { kind := "html", value := some "<b>x<c>z</c>y</b>",
              position := some ⟨⟨3, 1, 10⟩, ⟨3, 18, 27⟩⟩ }]

/-- The statement and all that is in the outer element have positions. -/
theorem created_positions_are_exact_nested :
    (∀ n ∈ nestedMarkupTree.flatten, ∀ p : Position,
      n.position = some p → 0 ≤ p.start.offset) ∧
    ∃ ext : Node, ofGeneric (some nestedMarkup) nestedMarkupTree = .ok ext ∧
      (ext.flatten.map fun n =>
          (n.kind, n.text, n.position.map fun p => (p.start.offset, p.stop.offset))) =
        [("root", "", none), ("import", "import a", some (0, 8)),
          ("jsx", "<b>x<c>z</c>y</b>", some (10, 27)), ("text", "x", some (13, 14)),
          ("jsx", "<c>z</c>", some (14, 22)), ("text", "z", some (17, 18)),
          ("text", "y", some (22, 23))] ∧
      (∀ n ∈ ext.flatten, n.kind = "import" ∨ n.kind = "export" → Located nestedMarkup n) ∧
      ∀ n ∈ ext.flatten, n.kind = "jsx" →
        (∀ x ∈ flattenStack n.children, Located nestedMarkup x) ∧
        n.children.Pairwise Precedes ∧
        (∀ x ∈ flattenStack n.children, ∀ c ∈ x.children, Within c x) ∧
        (Verbatim nestedMarkup n →
          ∀ x ∈ flattenStack n.children, x.position.isSome = true) := by
  have hoff : ∀ n ∈ nestedMarkupTree.flatten, ∀ p : Position,
      n.position = some p → 0 ≤ p.start.offset := by
    have hall : ∀ n ∈ nestedMarkupTree.flatten,
        n.position.all (fun p => decide (0 ≤ p.start.offset)) = true := by
      decide +kernel
    intro n hn p hp
    have h := hall n hn
    rw [hp] at h
    exact of_decide_eq_true h
  have hnodes : ((ofGeneric (some nestedMarkup) nestedMarkupTree).toOption.map fun ext =>
      ext.flatten.map fun n =>
        (n.kind, n.text, n.position.map fun p => (p.start.offset, p.stop.offset))) =
      some [("root", "", none), ("import", "import a", some (0, 8)),
        ("jsx", "<b>x<c>z</c>y</b>", some (10, 27)), ("text", "x", some (13, 14)),
        ("jsx", "<c>z</c>", some (14, 22)), ("text", "z", some (17, 18)),
        ("text", "y", some (22, 23))] := by
    decide +kernel
  refine ⟨hoff, ?_⟩
  cases h : ofGeneric (some nestedMarkup) nestedMarkupTree with
  | error e =>
    rw [h] at hnodes
    cases hnodes
  | ok ext =>
    rw [h] at hnodes
    exact ⟨ext, rfl, Option.some.inj hnodes,
      created_positions_are_exact nestedMarkup nestedMarkupTree ext hoff h⟩

end Mdx.Extended
