import Mdx.Proofs.Extended.Segment

/-!
# Extraction neither loses nor repeats text

A run of statements is found in the source, across any number of nodes, and the nodes that it replaces
are found by their offsets.  If the nodes lie in the source in order, the two fit: the run ends between
two nodes, and what it replaces is in it but for blanks.

`Placed src a segs` is the invariant: from the offset `a` on, the segments lie in the source one after
another, the nodes that a run consumes within the run.  All that is said about offsets is by induction
on it.
-/

namespace Mdx

/-- The offset at which a node starts. -/
def Node.startOffset (n : Node) : Int :=
  (n.position.map (·.start.offset)).getD 0

/-- The offset at which a node stops. -/
def Node.stopOffset (n : Node) : Int :=
  (n.position.map (·.stop.offset)).getD 0

/-- Whether the character at an offset is in the span of a node. -/
def Node.covers (i : Nat) (n : Node) : Bool :=
  decide (n.startOffset ≤ i) && decide ((i : Int) < n.stopOffset)

theorem Node.covers_iff {i : Nat} {n : Node} :
    n.covers i = true ↔ n.startOffset ≤ i ∧ (i : Int) < n.stopOffset := by
  rw [covers, Bool.and_eq_true, decide_eq_true_eq, decide_eq_true_eq]

theorem LineIndex.offset_point {src : List Char} {o : Nat} (ho : o ≤ src.length) :
    ((LineIndex.ofText src).point (o : Int)).offset = o := by
  show ((min (o : Int).toNat src.length : Nat) : Int) = o
  omega

end Mdx

namespace Mdx.Extended

open Mdx.Script

/-- Nodes that lie in a text, one after another. -/
structure LaidOut (src : List Char) (nodes : List Node) : Prop where
  located : ∀ n ∈ nodes, n.position.isSome
  inside : ∀ n ∈ nodes, 0 ≤ n.startOffset ∧ n.startOffset ≤ n.stopOffset ∧
    n.stopOffset ≤ src.length
  ordered : nodes.Pairwise fun a b => a.stopOffset ≤ b.startOffset

namespace LaidOut

variable {src : List Char} {n : Node} {nodes rest : List Node}

theorem sublist (h : LaidOut src nodes) (hs : rest.Sublist nodes) : LaidOut src rest :=
  ⟨fun n hn => h.located n (hs.subset hn), fun n hn => h.inside n (hs.subset hn),
    h.ordered.sublist hs⟩

theorem tail (h : LaidOut src (n :: rest)) : LaidOut src rest :=
  h.sublist (List.sublist_cons_self n rest)

theorem stop_le_start (h : LaidOut src (n :: rest)) {m : Node} (hm : m ∈ rest) :
    n.stopOffset ≤ m.startOffset :=
  (List.pairwise_cons.mp h.ordered).1 m hm

theorem start_le_start (h : LaidOut src (n :: rest)) {m : Node} (hm : m ∈ n :: rest) :
    n.startOffset ≤ m.startOffset := by
  rcases List.mem_cons.mp hm with rfl | hm
  · exact Int.le_refl _
  · exact Int.le_trans (h.inside n List.mem_cons_self).2.1 (h.stop_le_start hm)

theorem stop_le_getLastD (h : LaidOut src (n :: rest)) {m : Node} (hm : m ∈ n :: rest) (d : Node) :
    m.stopOffset ≤ ((n :: rest).getLastD d).stopOffset := by
  induction rest generalizing n m d with
  | nil =>
    rw [List.mem_singleton.mp hm]
    exact Int.le_refl _
  | cons n' rest ih =>
    have hlast : (n :: n' :: rest).getLastD d = (n' :: rest).getLastD n := rfl
    rw [hlast]
    rcases List.mem_cons.mp hm with rfl | hm
    · have hnext := ih h.tail List.mem_cons_self m
      have hstart := h.stop_le_start List.mem_cons_self
      have hle := (h.inside n' (List.mem_cons_of_mem _ List.mem_cons_self)).2.1
      omega
    · exact ih h.tail hm n

/-- The nodes from the first one that does not start before an offset on start there or later. -/
theorem le_start_of_mem_dropWhile (h : LaidOut src nodes) {stop : Nat} {m : Node}
    (hm : m ∈ nodes.dropWhile (startsBefore stop)) : (stop : Int) ≤ m.startOffset := by
  have hrest : LaidOut src (nodes.dropWhile (startsBefore stop)) :=
    h.sublist (List.dropWhile_sublist _)
  cases hd : nodes.dropWhile (startsBefore stop) with
  | nil =>
    rw [hd] at hm
    cases hm
  | cons n' rest' =>
    rw [hd] at hm hrest
    have hnot : ¬startsBefore stop n' = true := by
      have := List.head_dropWhile_not (startsBefore stop) (l := nodes) (by rw [hd]; simp)
      simpa [hd] using this
    obtain ⟨p, hp⟩ := Option.isSome_iff_exists.mp (hrest.located n' List.mem_cons_self)
    have hstart : n'.startOffset = p.start.offset := by rw [Node.startOffset, hp]; rfl
    rw [startsBefore, hp, Option.any_some, decide_eq_true_eq] at hnot
    have := hrest.start_le_start hm
    omega

end LaidOut

/-! ### Statement nodes -/

section StatementNode

variable {src : List Char} {st : Statement}

theorem offsets_sourceNode (hlt : st.start < st.stop) (hle : st.stop ≤ src.length) :
    (sourceNode (.ofText src) st).startOffset = st.start ∧
      (sourceNode (.ofText src) st).stopOffset = st.stop := by
  exact ⟨LineIndex.offset_point (by omega), LineIndex.offset_point hle⟩

theorem covers_sourceNode (hlt : st.start < st.stop) (hle : st.stop ≤ src.length) (i : Nat) :
    (sourceNode (.ofText src) st).covers i = st.covers i := by
  obtain ⟨hstart, hstop⟩ := offsets_sourceNode hlt hle
  rw [Node.covers, hstart, hstop, Statement.covers]
  simp only [Int.ofNat_le, Int.ofNat_lt]

theorem countP_covers_sourceNode {pos stop : Nat} {sts : List Statement}
    (h : IsRun src pos stop sts) (i : Nat) :
    (sts.map (sourceNode (.ofText src))).countP (Node.covers i) =
      sts.countP (Statement.covers i) := by
  rw [List.countP_map]
  refine List.countP_congr fun st hst => ?_
  obtain ⟨-, hlt, hle⟩ := h.inside st hst
  rw [Function.comp_apply, covers_sourceNode hlt (hle.trans h.stop_le)]

theorem inside_sourceNode {pos stop : Nat} {sts : List Statement} (h : IsRun src pos stop sts)
    {n : Node} (hn : n ∈ sts.map (sourceNode (.ofText src))) :
    (pos : Int) ≤ n.startOffset ∧ n.stopOffset ≤ stop := by
  obtain ⟨st, hst, rfl⟩ := List.mem_map.mp hn
  obtain ⟨hpos, hlt, hle⟩ := h.inside st hst
  obtain ⟨hstart, hstop⟩ := offsets_sourceNode hlt (hle.trans h.stop_le)
  rw [hstart, hstop]
  omega

theorem ordered_sourceNode {pos stop : Nat} {sts : List Statement} (h : IsRun src pos stop sts) :
    (sts.map (sourceNode (.ofText src))).Pairwise fun a b => a.stopOffset ≤ b.startOffset := by
  rw [List.pairwise_map]
  refine h.ordered.imp_of_mem fun {a b} ha hb hab => ?_
  obtain ⟨-, hlta, hlea⟩ := h.inside a ha
  obtain ⟨-, hltb, hleb⟩ := h.inside b hb
  rw [(offsets_sourceNode hlta (hlea.trans h.stop_le)).2,
    (offsets_sourceNode hltb (hleb.trans h.stop_le)).1]
  omega

end StatementNode

/-! ### Segments in the source -/

/-- From an offset on, segments lie in the source one after another. -/
inductive Placed (src : List Char) : Int → List Segment → Prop
  | nil {a : Int} : Placed src a []
  | kept {a : Int} {n : Node} {segs : List Segment} (ha : a ≤ n.startOffset)
      (hn : n.startOffset ≤ n.stopOffset) (h : Placed src n.stopOffset segs) :
      Placed src a (.kept n :: segs)
  | run {a : Int} {pos stop : Nat} {sts : List Statement} {first : Node} {more : List Node}
      {segs : List Segment} (ha : a ≤ pos) (hrun : IsRun src pos stop sts)
      (htaken : ∀ n ∈ first :: more, (pos : Int) ≤ n.startOffset ∧ n.stopOffset ≤ stop)
      (h : Placed src stop segs) :
      Placed src a (.run first more (sts.map (sourceNode (.ofText src))) :: segs)

/-- **The segments of nodes that lie in the source lie in it too.** -/
theorem Extraction.placed {src : List Char} {nodes : List Node} {segs : List Segment} {a : Int}
    (h : Extraction (some (.ofText src)) nodes segs) (hl : LaidOut src nodes)
    (ha : ∀ n ∈ nodes, a ≤ n.startOffset) : Placed src a segs := by
  induction h generalizing a with
  | nil => exact .nil
  | @content n rest segs ho h ih =>
    exact .kept (ha n List.mem_cons_self) (hl.inside n List.mem_cons_self).2.1
      (ih hl.tail fun m hm => hl.stop_le_start hm)
  | @textRun n rest found segs kind literal ho hf h ih =>
    -- every node has a position, so none is read from its own text
    obtain ⟨-, hno⟩ := opening_eq_textRun ho
    have hsome := hl.located n List.mem_cons_self
    rcases hno with hno | hno
    · cases hno
    · rw [hno] at hsome
      cases hsome
  | @sourceRun n rest found segs d kind start stop ho hf h ih =>
    obtain ⟨hdoc, -, p, hp, hstart, hkey⟩ := opening_eq_sourceRun ho
    obtain rfl : Document.ofText src = d := Option.some.inj hdoc
    obtain ⟨sts, hsplit, hlast, rfl⟩ := runFromSource_eq_ok hf
    have hrun : IsRun src start.toNat stop sts :=
      isRun_of_splitStatements (lt_length_of_statementKeyword? hkey).le hsplit
    have hn : n.startOffset = start := by rw [Node.startOffset, hp, hstart]; rfl
    have hpos : ((start.toNat : Nat) : Int) = n.startOffset := by
      have := (hl.inside n List.mem_cons_self).1
      omega
    have hcovered : LaidOut src (n :: rest.takeWhile (startsBefore stop)) :=
      hl.sublist (.cons_cons n (List.takeWhile_sublist _))
    rw [lastCovered, List.takeWhile_cons_of_pos (startsBefore_of_sourceRun ho hf)] at hlast
    refine .run ?_ hrun (fun m hm => ⟨?_, ?_⟩) (ih ?_ ?_)
    · rw [hpos]
      exact ha n List.mem_cons_self
    · rw [hpos]
      exact hcovered.start_le_start hm
    · exact Int.le_trans (hcovered.stop_le_getLastD hm n) hlast
    · exact hl.tail.sublist (List.dropWhile_sublist _)
    · intro m hm
      exact hl.tail.le_start_of_mem_dropWhile hm

namespace Placed

variable {src : List Char} {a : Int} {segs : List Segment}

theorem le_start (h : Placed src a segs) : ∀ n : Node,
    n ∈ segs.flatMap Segment.keeps ∨ n ∈ segs.flatMap Segment.consumes ∨
      n ∈ segs.flatMap Segment.emits → a ≤ n.startOffset := by
  induction h with
  | nil => simp
  | @kept a n segs ha hn h ih =>
    intro m hm
    simp only [List.flatMap_cons, Segment.keeps, Segment.consumes, Segment.emits,
      List.singleton_append, List.nil_append, List.mem_cons] at hm
    rcases hm with (rfl | hm) | hm | hm
    · exact ha
    · exact Int.le_trans (Int.le_trans ha hn) (ih m (.inl hm))
    · exact Int.le_trans (Int.le_trans ha hn) (ih m (.inr (.inl hm)))
    · exact Int.le_trans (Int.le_trans ha hn) (ih m (.inr (.inr hm)))
  | @run a pos stop sts first more segs ha hrun htaken h ih =>
    intro m hm
    have hps : (pos : Int) ≤ stop := by
      obtain ⟨st, hst⟩ := List.exists_mem_of_ne_nil sts hrun.ne_nil
      have := hrun.inside st hst
      omega
    simp only [List.flatMap_cons, Segment.keeps, Segment.consumes, Segment.emits,
      List.nil_append, List.mem_append] at hm
    rcases hm with hm | (hm | hm) | (hm | hm)
    · exact Int.le_trans (Int.le_trans ha hps) (ih m (.inl hm))
    · exact Int.le_trans ha (htaken m hm).1
    · exact Int.le_trans (Int.le_trans ha hps) (ih m (.inr (.inl hm)))
    · exact Int.le_trans ha (inside_sourceNode hrun hm).1
    · exact Int.le_trans (Int.le_trans ha hps) (ih m (.inr (.inr hm)))

theorem countP_emits_eq_zero (h : Placed src a segs) {i : Nat} (hi : (i : Int) < a) :
    (segs.flatMap Segment.emits).countP (Node.covers i) = 0 := by
  rw [List.countP_eq_zero]
  intro n hn
  have := h.le_start n (.inr (.inr hn))
  rw [Node.covers_iff]
  omega

/-- **A character of a consumed node that is no blank is in exactly one statement.** -/
theorem countP_emits_eq_one (h : Placed src a segs) {i : Nat} {c : Char} (hc : src[i]? = some c)
    (hblank : Text.isBlank c = false) {n : Node} (hn : n ∈ segs.flatMap Segment.consumes)
    (hi : n.covers i = true) : (segs.flatMap Segment.emits).countP (Node.covers i) = 1 := by
  rw [Node.covers_iff] at hi
  induction h with
  | nil => cases hn
  | kept ha hle h ih => exact ih hn
  | @run a pos stop sts first more segs ha hrun htaken h ih =>
    rw [List.flatMap_cons, Segment.consumes, List.mem_append] at hn
    rw [List.flatMap_cons, Segment.emits, List.countP_append, countP_covers_sourceNode hrun]
    rcases hn with hn | hn
    · have hin := htaken n hn
      rw [hrun.once i c (by omega) (by omega) hc hblank, h.countP_emits_eq_zero (by omega)]
    · have hafter : (stop : Int) ≤ i := by
        have := h.le_start n (.inr (.inl hn))
        omega
      have hzero : sts.countP (Statement.covers i) = 0 := by
        rw [List.countP_eq_zero]
        intro st hst
        have := hrun.inside st hst
        simp only [Statement.covers, Bool.and_eq_true, decide_eq_true_eq]
        omega
      rw [hzero, ih hn]

/-- **The statements are disjoint and in order**, those of different runs too. -/
theorem pairwise_emits (h : Placed src a segs) :
    (segs.flatMap Segment.emits).Pairwise fun m n => m.stopOffset ≤ n.startOffset := by
  induction h with
  | nil => exact .nil
  | kept ha hle h ih => exact ih
  | run ha hrun htaken h ih =>
    rw [List.flatMap_cons, Segment.emits, List.pairwise_append]
    refine ⟨ordered_sourceNode hrun, ih, fun m hm n hn => ?_⟩
    exact Int.le_trans (inside_sourceNode hrun hm).2 (h.le_start n (.inr (.inr hn)))

/-- **No statement overlaps a node that is kept.** -/
theorem not_covers_both (h : Placed src a segs) {m n : Node} (hm : m ∈ segs.flatMap Segment.emits)
    (hn : n ∈ segs.flatMap Segment.keeps) (i : Nat) :
    ¬(m.covers i = true ∧ n.covers i = true) := by
  rw [Node.covers_iff, Node.covers_iff]
  rintro ⟨hmi, hni⟩
  induction h with
  | nil => cases hm
  | kept ha hle h ih =>
    rw [List.flatMap_cons, Segment.keeps, List.mem_append] at hn
    rcases hn with hn | hn
    · rw [List.mem_singleton.mp hn] at hni
      have := h.le_start m (.inr (.inr hm))
      omega
    · exact ih hm hn
  | run ha hrun htaken h ih =>
    rw [List.flatMap_cons, Segment.emits, List.mem_append] at hm
    rcases hm with hm | hm
    · have := (inside_sourceNode hrun hm).2
      have := h.le_start n (.inl hn)
      omega
    · exact ih hm hn

theorem statement_of_mem_emits (h : Placed src a segs) {n : Node}
    (hn : n ∈ segs.flatMap Segment.emits) :
    (n.kind = "import" ∨ n.kind = "export") ∧
      n.value = some (String.ofList (slice src n.startOffset.toNat n.stopOffset.toNat)) := by
  induction h with
  | nil => cases hn
  | kept ha hle h ih => exact ih hn
  | @run a pos stop sts first more segs ha hrun htaken h ih =>
    rw [List.flatMap_cons, Segment.emits, List.mem_append] at hn
    rcases hn with hn | hn
    · obtain ⟨st, hst, rfl⟩ := List.mem_map.mp hn
      obtain ⟨-, hlt, hle⟩ := hrun.inside st hst
      obtain ⟨hstart, hstop⟩ := offsets_sourceNode hlt (hle.trans hrun.stop_le)
      refine ⟨?_, ?_⟩
      · show st.kind.keyword = "import" ∨ st.kind.keyword = "export"
        cases st.kind with
        | «import» => exact .inl rfl
        | «export» => exact .inr rfl
      · rw [hstart, hstop]
        rfl
    · exact ih hn

end Placed

/-- **Extraction neither loses nor repeats text.**  If the top-level nodes lie in the source one after
another, they fall into segments, from which the result is put together, such that

* every statement is a piece of the source,
* every character of a consumed node that is no blank is in exactly one statement,
* the statements are disjoint and in the order of the document, and
* no statement overlaps a node that is kept. -/
theorem extraction_keeps_text (src : List Char) (nodes out : List Node) (hl : LaidOut src nodes)
    (h : extractStatements (some (.ofText src)) nodes = .ok out) :
    ∃ segs : List Segment, Extraction (some (.ofText src)) nodes segs ∧
      segs.flatMap Segment.taken = nodes ∧ segs.flatMap Segment.written = out ∧
      (∀ n ∈ segs.flatMap Segment.emits, (n.kind = "import" ∨ n.kind = "export") ∧
        n.value = some (String.ofList (slice src n.startOffset.toNat n.stopOffset.toNat))) ∧
      (∀ n ∈ segs.flatMap Segment.consumes, ∀ (i : Nat) (c : Char), n.covers i = true →
        src[i]? = some c → Text.isBlank c = false →
          (segs.flatMap Segment.emits).countP (Node.covers i) = 1) ∧
      ((segs.flatMap Segment.emits).Pairwise fun m n => m.stopOffset ≤ n.startOffset) ∧
      ∀ m ∈ segs.flatMap Segment.emits, ∀ n ∈ segs.flatMap Segment.keeps, ∀ i : Nat,
        ¬(m.covers i = true ∧ n.covers i = true) := by
  obtain ⟨segs, hsegs, hout⟩ := extractStatements_eq_ok_iff.mp h
  have hplaced : Placed src 0 segs := hsegs.placed hl fun n hn => (hl.inside n hn).1
  refine ⟨segs, hsegs, hsegs.flatMap_taken, hout, ?_, ?_, hplaced.pairwise_emits, ?_⟩
  · intro n hn
    exact hplaced.statement_of_mem_emits hn
  · intro n hn i c hi hc hblank
    exact hplaced.countP_emits_eq_one hc hblank hn hi
  · intro m hm n hn i
    exact hplaced.not_covers_both hm hn i

/-- A paragraph between two offsets. -/
def paragraphAt (start stop : Int) : Node :=
  .branch { kind := "paragraph", position := some ⟨⟨1, 1, start⟩, ⟨1, 1, stop⟩⟩ } []

/-- A statement that goes on after a blank line, another one, and a text. -/
def spreadText : List Char :=
  "import \x7b a,\n\n b \x7d\nexport 1 \n\nc".toList

/-- The run of two statements takes two paragraphs, and leaves the third. -/
theorem extraction_keeps_text_spread :
    LaidOut spreadText [paragraphAt 0 11, paragraphAt 13 26, paragraphAt 29 30] ∧
      ∃ out : List Node,
        extractStatements (some (.ofText spreadText))
          [paragraphAt 0 11, paragraphAt 13 26, paragraphAt 29 30] = .ok out ∧
        out.map Node.text = ["import \x7b a,\n\n b \x7d", "export 1", ""] ∧
        ∃ segs : List Segment, segs.flatMap Segment.written = out ∧
          (∀ n ∈ segs.flatMap Segment.consumes, ∀ (i : Nat) (c : Char), n.covers i = true →
            spreadText[i]? = some c → Text.isBlank c = false →
              (segs.flatMap Segment.emits).countP (Node.covers i) = 1) ∧
          ((segs.flatMap Segment.emits).Pairwise fun m n => m.stopOffset ≤ n.startOffset) ∧
          ∀ m ∈ segs.flatMap Segment.emits, ∀ n ∈ segs.flatMap Segment.keeps, ∀ i : Nat,
            ¬(m.covers i = true ∧ n.covers i = true) := by
  have hl : LaidOut spreadText [paragraphAt 0 11, paragraphAt 13 26, paragraphAt 29 30] :=
    ⟨by decide, by decide, by decide⟩
  have htext : (extractStatements (some (.ofText spreadText))
      [paragraphAt 0 11, paragraphAt 13 26, paragraphAt 29 30]).toOption.map (·.map Node.text) =
      some ["import \x7b a,\n\n b \x7d", "export 1", ""] := by
    decide +kernel
  refine ⟨hl, ?_⟩
  cases h : extractStatements (some (.ofText spreadText))
      [paragraphAt 0 11, paragraphAt 13 26, paragraphAt 29 30] with
  | error e =>
    rw [h] at htext
    cases htext
  | ok out =>
    rw [h] at htext
    obtain ⟨segs, -, -, hout, -, hall⟩ := extraction_keeps_text spreadText _ out hl h
    exact ⟨out, rfl, Option.some.inj htext, segs, hout, hall⟩

end Mdx.Extended
