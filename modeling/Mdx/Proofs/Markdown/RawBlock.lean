import Mathlib.Order.Bounds.Defs
import Mdx.Proofs.Markdown.Paragraph
import Mdx.Proofs.Source.LineIndex

/-!
# Blocks of embedded elements

The block grammar cuts a text into lines of its own (`linesOf`), and positions are told by the lines of a
`LineIndex`.  The two agree on every line that the grammar has (`lineAt_linesOf`); the grammar only lacks
a last line of nothing but spaces and tabs.

A block of embedded elements goes on to the next blank line (`isLeast_blankLine`), and the text of its lines,
joined by the grammar, is the piece of the source between the first start and the last end
(`joinWholeBodies_linesFrom`).
-/

namespace Mdx

namespace Markdown

open LineIndex (ofText lineText)

variable {src : List Char} {i : Nat}

/-! ### The lines of the grammar -/

theorem splitLines_append_feed {x : List Char} (h : '\n' ∉ x) (before rest : List Char) :
    splitLines before (x ++ '\n' :: rest) =
      Line.ofChars (before.reverse ++ x) true :: splitLines [] rest := by
  induction x generalizing before with
  | nil => simp [splitLines]
  | cons c x ih =>
    have hc : c ≠ '\n' := fun hc => h (hc ▸ List.mem_cons_self)
    have hx : '\n' ∉ x := fun hx => h (List.mem_cons_of_mem c hx)
    rw [List.cons_append, splitLines, if_neg hc, ih hx]
    simp

/-- From the start of a line on, the lines are this one and those after it. -/
theorem splitLines_drop_start (hi : i + 1 < (ofText src).starts.size) :
    splitLines [] (src.drop ((ofText src).starts.getD i 0)) =
      Line.ofChars (lineText src i) true ::
        splitLines [] (src.drop ((ofText src).starts.getD (i + 1) 0)) := by
  have hline : '\n' ∉ lineText src i := LineIndex.not_mem_lineText (by omega)
  have hdrop : src.drop ((ofText src).starts.getD i 0) =
      lineText src i ++ '\n' :: src.drop ((ofText src).starts.getD (i + 1) 0) := LineIndex.drop_start hi
  rw [hdrop, splitLines_append_feed hline]
  rfl

/-- The last line counts only if there is more than spaces and tabs in it. -/
theorem splitLines_drop_last (hi : i + 1 = (ofText src).starts.size) :
    splitLines [] (src.drop ((ofText src).starts.getD i 0)) =
      if (lineText src i).all Text.isIndent then [] else [Line.ofChars (lineText src i) false] := by
  have hend : (ofText src).lineEnd i = src.length := if_neg (by omega)
  have hline : '\n' ∉ lineText src i := LineIndex.not_mem_lineText (by omega)
  have hlast : src.drop ((ofText src).starts.getD i 0) = lineText src i := by
    rw [lineText, hend, slice, ← List.length_drop, List.take_length]
  rw [hlast, splitLines_of_not_mem hline, List.append_nil, List.all_reverse]
  rfl

theorem drop_splitLines (hi : i < (ofText src).starts.size) :
    (splitLines [] src).drop i = splitLines [] (src.drop ((ofText src).starts.getD i 0)) := by
  induction i with
  | zero => rfl
  | succ i ih =>
    rw [← List.drop_drop, ih (by omega), splitLines_drop_start hi]
    rfl

theorem length_splitLines_le (src : List Char) :
    (splitLines [] src).length ≤ (ofText src).starts.size := by
  obtain ⟨last, hlast⟩ := Nat.exists_eq_succ_of_ne_zero (LineIndex.size_starts_pos src).ne'
  have hdrop : (splitLines [] src).drop last = _ := drop_splitLines (by omega)
  rw [splitLines_drop_last hlast.symm] at hdrop
  have hlength := congrArg List.length hdrop
  rw [List.length_drop] at hlength
  split at hlength
  · rw [List.length_nil] at hlength
    omega
  · rw [List.length_singleton] at hlength
    omega

theorem all_isIndent_of_lacking (hi : i < (ofText src).starts.size) (hlack : (linesOf src).size ≤ i) :
    (lineText src i).all Text.isIndent = true := by
  have hnone : (splitLines [] src).drop i = [] := List.drop_eq_nil_iff.mpr hlack
  rw [drop_splitLines hi] at hnone
  by_cases hnext : i + 1 < (ofText src).starts.size
  · rw [splitLines_drop_start hnext] at hnone
    cases hnone
  · have hlast : i + 1 = (ofText src).starts.size := by omega
    rw [splitLines_drop_last hlast] at hnone
    split at hnone
    next hblank => exact hblank
    next => cases hnone

theorem lineAt_of_lacking {lines : Array Line} (hlack : lines.size ≤ i) : lineAt lines i = Line.absent := by
  rw [lineAt, Array.getD_eq_getD_getElem?, Array.getElem?_eq_none hlack, Option.getD_none]

/-- **A line of the grammar is a line of the text.** -/
theorem lineAt_linesOf (hi : i < (linesOf src).size) :
    i < (ofText src).starts.size ∧
      lineAt (linesOf src) i = Line.ofChars (lineText src i) (i + 1 < (ofText src).starts.size) := by
  have hi : i < (splitLines [] src).length := hi
  have hstarts : i < (ofText src).starts.size := Nat.lt_of_lt_of_le hi (length_splitLines_le src)
  have hat : lineAt (linesOf src) i = ((splitLines [] src).drop i).headD Line.absent := by
    rw [lineAt, linesOf, Array.getD_eq_getD_getElem?, List.getElem?_toArray, List.headD_eq_head?_getD,
      List.head?_drop]
  refine ⟨hstarts, ?_⟩
  rw [hat]
  by_cases hnext : i + 1 < (ofText src).starts.size
  · rw [drop_splitLines hstarts, splitLines_drop_start hnext, decide_eq_true hnext]
    rfl
  · have hlast : i + 1 = (ofText src).starts.size := by omega
    have hne : (splitLines [] src).drop i ≠ [] := by
      rw [Ne, List.drop_eq_nil_iff]
      omega
    rw [drop_splitLines hstarts, splitLines_drop_last hlast] at hne ⊢
    split
    next hblank =>
      rw [if_pos hblank] at hne
      exact absurd rfl hne
    next hblank => rw [decide_eq_false hnext]; rfl

namespace Line

theorem measure_fst (extra count column : Nat) (x : List Char) :
    (measure extra count column x).1 = count + (x.takeWhile Text.isIndent).length := by
  induction x generalizing count column with
  | nil => rfl
  | cons c x ih =>
    rw [measure]
    by_cases htab : c = '\t'
    · simp [htab, ih, Text.isIndent]
      omega
    by_cases hspace : c = ' '
    · simp [hspace, ih, Text.isIndent]
      omega
    · simp [htab, hspace, Text.isIndent]

theorem isEmpty_ofChars (x : List Char) (ended : Bool) :
    (ofChars x ended).isEmpty = x.all Text.isIndent := by
  have hshift : (ofChars x ended).shift = (x.takeWhile Text.isIndent).length := by
    show (measure 0 0 0 x).1 = _
    rw [measure_fst, Nat.zero_add]
  have htext : (ofChars x ended).text = x := rfl
  rw [isEmpty, hshift, htext, Bool.eq_iff_iff, decide_eq_true_iff, List.all_eq_true,
    ← List.takeWhile_eq_self_iff]
  constructor
  · intro hle
    exact (List.takeWhile_prefix _).eq_of_length_le hle
  · intro heq
    rw [heq]

theorem body_zero (l : Line) : l.body 0 = l.text := by
  rw [body]
  cases l.text with
  | nil => rfl
  | cons c rest => rfl

theorem isEmpty_iff_content {l : Line} : l.isEmpty = true ↔ l.content = [] := by
  rw [isEmpty, decide_eq_true_iff, content, List.drop_eq_nil_iff]

end Line

/-! ### The lines of a block -/

theorem linesFrom_cons {lines : Array Line} {start stop : Nat} (h : start < stop)
    (hs : start < lines.size) :
    linesFrom lines start stop = lineAt lines start :: linesFrom lines (start + 1) stop := by
  have hcount : stop - start = stop - (start + 1) + 1 := by omega
  have hat : lineAt lines start = lines.toList[start] := by
    rw [lineAt, Array.getD_eq_getD_getElem?, ← Array.getElem?_toList, List.getElem?_eq_getElem hs,
      Option.getD_some]
  rw [linesFrom, linesFrom, Array.toList_extract, Array.toList_extract, List.extract_eq_take_drop,
    List.extract_eq_take_drop, List.drop_eq_getElem_cons hs, hcount, List.take_succ_cons, hat]

/-- **The lines of a block, joined, are a piece of the text**, from the start of the first line to the end of
the last one, and the line feed after that. -/
theorem joinWholeBodies_linesFrom {start count : Nat} (h : start + count < (linesOf src).size) :
    joinWholeBodies 0 (linesFrom (linesOf src) start (start + count + 1)) =
      slice src ((ofText src).starts.getD start 0) ((ofText src).lineEnd (start + count)) ++
        (lineAt (linesOf src) (start + count)).ending := by
  have hbody : ∀ j < (linesOf src).size, (lineAt (linesOf src) j).body 0 = lineText src j := by
    intro j hj
    rw [Line.body_zero, (lineAt_linesOf hj).2]
    rfl
  induction count generalizing start with
  | zero =>
    have hnone : linesFrom (linesOf src) (start + 1) (start + 1) = [] := by
      simp [linesFrom]
    rw [Nat.add_zero] at h ⊢
    rw [linesFrom_cons (Nat.lt_add_one _) h, hnone, joinWholeBodies, List.flatMap_singleton,
      hbody start h]
    rfl
  | succ count ih =>
    have hindex : start + (count + 1) = start + 1 + count := by omega
    rw [hindex] at h ⊢
    have hstart : start < (linesOf src).size := by omega
    have hnext : start + 1 < (ofText src).starts.size := (lineAt_linesOf (by omega)).1
    have hending : (lineAt (linesOf src) start).ending = ['\n'] := by
      rw [(lineAt_linesOf hstart).2, decide_eq_true hnext]
      rfl
    have hle : (ofText src).starts.getD (start + 1) 0 ≤ (ofText src).lineEnd (start + 1 + count) :=
      LineIndex.start_le_lineEnd_of_le src (Nat.le_add_right _ _)
    have hrest := ih h
    rw [joinWholeBodies] at hrest ⊢
    rw [linesFrom_cons (by omega) hstart, List.flatMap_cons, hrest, hbody start hstart, hending,
      ← LineIndex.lineText_append hnext hle]
    simp

/-- The line at which a block ends is the first one that is blank or the end of what is looked at. -/
theorem isLeast_blankLine {lines : Array Line} {stop room next : Nat} (h : next ≤ stop)
    (hroom : stop ≤ next + room) :
    IsLeast {i | next ≤ i ∧ (i = stop ∨ (lineAt lines i).isEmpty = true)}
      (blankLine lines stop room next) := by
  induction room generalizing next with
  | zero =>
    obtain rfl : next = stop := by omega
    rw [blankLine]
    exact ⟨⟨Nat.le_refl _, .inl rfl⟩, fun i hi => hi.1⟩
  | succ room ih =>
    rw [blankLine]
    split
    next hend =>
      refine ⟨⟨Nat.le_refl _, ?_⟩, fun i hi => hi.1⟩
      rcases Bool.or_eq_true_iff.mp hend with hstop | hempty
      · exact .inl (Nat.le_antisymm h (of_decide_eq_true hstop))
      · exact .inr hempty
    next hend =>
      rw [Bool.or_eq_true, decide_eq_true_eq, not_or] at hend
      have hnext : IsLeast _ (blankLine lines stop room (next + 1)) := ih (by omega) (by omega)
      obtain ⟨⟨hge, hkind⟩, hleast⟩ := hnext
      refine ⟨⟨by omega, hkind⟩, ?_⟩
      rintro i ⟨hi, hline⟩
      -- the line itself is none of the lines that count
      have hne : i ≠ next := by
        rintro rfl
        rcases hline with rfl | hempty
        · omega
        · exact hend.2 hempty
      exact hleast ⟨by omega, hline⟩

theorem isEmpty_lineAt (hi : i < (ofText src).starts.size) :
    (lineAt (linesOf src) i).isEmpty = (lineText src i).all Text.isIndent := by
  by_cases hlack : (linesOf src).size ≤ i
  · rw [lineAt_of_lacking hlack, all_isIndent_of_lacking hi hlack]
    rfl
  · rw [(lineAt_linesOf (by omega)).2, Line.isEmpty_ofChars]

/-- The lines that are blank for the grammar are those with spaces and tabs only. -/
theorem isLeast_blank {start stop m : Nat} (hstop : stop ≤ (ofText src).starts.size)
    (h : IsLeast {i | start + 1 ≤ i ∧ (i = stop ∨ (lineAt (linesOf src) i).isEmpty = true)} m)
    (hm : m ≤ stop) :
    IsLeast {i | start < i ∧ (i = stop ∨ (lineText src i).all Text.isIndent = true)} m := by
  obtain ⟨⟨hlow, hline⟩, hleast⟩ := h
  refine ⟨⟨hlow, ?_⟩, ?_⟩
  · rcases Nat.lt_or_eq_of_le hm with hlt | heq
    · have hempty := hline.resolve_left (Nat.ne_of_lt hlt)
      rw [isEmpty_lineAt (by omega)] at hempty
      exact .inr hempty
    · exact .inl heq
  · rintro i ⟨hi, hblank⟩
    by_contra hlt
    have hempty := hblank.resolve_left (by omega)
    rw [← isEmpty_lineAt (by omega)] at hempty
    exact hlt (hleast ⟨hi, .inr hempty⟩)

/-! ### The rule -/

theorem elementRule_eq (lines : Array Line) (scope : Scope) (start stop : Nat) (state : RuleState) :
    elementRule lines scope start stop false state =
      (elementBlock? lines scope start stop).elim (false, state) fun b =>
        (true, { line := b.next, found := state.found ++ [b.piece] }) := by
  unfold elementRule elementBlock?
  cases startText? scope (lineAt lines start) with
  | none => rfl
  | some s => cases hs : Element.startsHere s <;> simp [hs]

/-- A silent call has the verdict of the other one and changes nothing. -/
theorem elementRule_silent (lines : Array Line) (scope : Scope) (start stop : Nat) (state : RuleState) :
    elementRule lines scope start stop true state =
      ((elementRule lines scope start stop false state).1, state) := by
  unfold elementRule
  cases startText? scope (lineAt lines start) with
  | none => rfl
  | some s => cases hs : Element.startsHere s <;> simp [hs]

theorem elementBlock?_eq_some {lines : Array Line} {scope : Scope} {start stop : Nat} {b : FoundBlock}
    (h : elementBlock? lines scope start stop = some b) :
    Element.startsHere (lineAt lines start).content = true ∧
      b = rawBlock lines scope start (blankLine lines stop (stop - start) (start + 1)) := by
  unfold elementBlock? startText? at h
  by_cases hcode : isCodeLine scope (lineAt lines start) = true
  · simp [hcode] at h
  · by_cases hstarts : Element.startsHere (lineAt lines start).content = true
    · exact ⟨hstarts, by simpa [hcode, hstarts, eq_comm] using h⟩
    · simp [hcode, hstarts] at h

theorem exists_of_elementBlock? {lines : Array Line} {scope : Scope} {start stop : Nat} {b : FoundBlock}
    (h : elementBlock? lines scope start stop = some b) :
    (lineAt lines start).isEmpty = false ∧
      b = rawBlock lines scope start (blankLine lines stop (stop - start) (start + 1)) := by
  obtain ⟨hstarts, hb⟩ := elementBlock?_eq_some h
  refine ⟨?_, hb⟩
  rw [← Bool.not_eq_true, Line.isEmpty_iff_content]
  intro hnil
  rw [hnil] at hstarts
  cases hstarts

theorem dropEndWhile_ending {x y : List Char} (hx : x ≠ []) (hfeed : '\n' ∉ x) (l : Line) :
    Text.dropEndWhile (· == '\n') (y ++ x ++ l.ending) = y ++ x := by
  obtain ⟨x, c, rfl⟩ := (List.eq_nil_or_concat' x).resolve_left hx
  have hc : (c == '\n') = false := by
    rw [beq_eq_false_iff_ne]
    rintro rfl
    exact hfeed (by simp)
  rw [Text.dropEndWhile, Line.ending]
  cases l.ended <;> simp [hc]

/-- The text of lines the last of which is not blank, without the line feed after it. -/
theorem dropEndWhile_joinWholeBodies {start m : Nat} (h : start < m) (hm : m ≤ (linesOf src).size)
    (hlast : (lineAt (linesOf src) (m - 1)).isEmpty = false) :
    Text.dropEndWhile (· == '\n') (joinWholeBodies 0 (linesFrom (linesOf src) start m)) =
      slice src ((ofText src).starts.getD start 0) ((ofText src).lineEnd (m - 1)) := by
  obtain ⟨count, rfl⟩ : ∃ count, m = start + count + 1 := ⟨m - start - 1, by omega⟩
  rw [Nat.add_sub_cancel] at hlast ⊢
  have hstarts := (lineAt_linesOf hm).1
  have hne : lineText src (start + count) ≠ [] := by
    intro hnil
    rw [isEmpty_lineAt hstarts, hnil] at hlast
    cases hlast
  have hpiece : slice src ((ofText src).starts.getD start 0) ((ofText src).starts.getD (start + count) 0) ++
      lineText src (start + count) =
        slice src ((ofText src).starts.getD start 0) ((ofText src).lineEnd (start + count)) :=
    slice_append_slice (LineIndex.starts_le_starts src (Nat.le_add_right _ _) hstarts)
      (LineIndex.start_le_lineEnd src _)
  rw [joinWholeBodies_linesFrom hm, ← hpiece]
  exact dropEndWhile_ending hne (LineIndex.not_mem_lineText hstarts) _

/-- **A block of embedded elements is the longest run of lines that are not blank, word for word.**

* A silent call of the rule has the verdict of the other one, and changes nothing; nor does a call that finds
  no block.
* A block that starts on the line `start` ends at the first line after it that is blank, having only spaces
  and tabs, or is the line `stop`.  The rule goes on there and adds one piece, with these lines; its content
  is, but for line feeds at the end, the text from the start of the first line to the end of the last one. -/
theorem raw_block_is_run_of_lines {scope : Scope} {start stop : Nat} (hindent : scope.indent = 0)
    (hstart : start < stop) (hstop : stop ≤ (ofText src).starts.size) (state : RuleState) :
    elementRule (linesOf src) scope start stop true state =
      ((elementRule (linesOf src) scope start stop false state).1, state) ∧
    ((elementRule (linesOf src) scope start stop false state).1 = false →
      (elementRule (linesOf src) scope start stop false state).2 = state) ∧
    ((elementRule (linesOf src) scope start stop false state).1 = true →
      ∃ (m : Nat) (content : String),
        IsLeast {i | start < i ∧ (i = stop ∨ (lineText src i).all Text.isIndent = true)} m ∧
        (elementRule (linesOf src) scope start stop false state).2 =
          { line := m
            found := state.found ++
              [.node { kind := "html_block", content := content, lines := some (start, m) } []] } ∧
        Text.dropEndWhile (· == '\n') content.toList =
          slice src ((ofText src).starts.getD start 0) ((ofText src).lineEnd (m - 1))) := by
  refine ⟨elementRule_silent _ _ _ _ _, ?_, ?_⟩
  · rw [elementRule_eq]
    cases elementBlock? (linesOf src) scope start stop with
    | none => intro _; rfl
    | some b => intro h; cases h
  rw [elementRule_eq]
  cases hb : elementBlock? (linesOf src) scope start stop with
  | none => intro h; cases h
  | some b =>
    intro _
    obtain ⟨hfirst, rfl⟩ := exists_of_elementBlock? hb
    have hempty : IsLeast _ (blankLine (linesOf src) stop (stop - start) (start + 1)) :=
      isLeast_blankLine hstart (by omega)
    generalize blankLine (linesOf src) stop (stop - start) (start + 1) = m at hempty
    have hm : m ≤ stop := hempty.2 ⟨hstart, .inl rfl⟩
    have hlow : start < m := hempty.1.1
    -- the last line is the first one, or comes before the least line that is blank
    have hlast : (lineAt (linesOf src) (m - 1)).isEmpty = false := by
      rcases Nat.lt_or_eq_of_le (Nat.le_sub_one_of_lt hlow) with hlt | heq
      · rw [← Bool.not_eq_true]
        intro hblank
        have := hempty.2 ⟨hlt, .inr hblank⟩
        omega
      · rw [← heq]
        exact hfirst
    -- a line that the grammar lacks is empty, so it is not the last one
    have hsize : m ≤ (linesOf src).size := by
      by_contra hlt
      have hlacking : lineAt (linesOf src) (m - 1) = Line.absent := lineAt_of_lacking (by omega)
      rw [hlacking] at hlast
      cases hlast
    refine ⟨m, _, isLeast_blank hstop hempty hm, rfl, ?_⟩
    rw [String.toList_ofList, hindent]
    exact dropEndWhile_joinWholeBodies hlow hsize hlast

/-- Two indented lines of an element between a paragraph and a line of blanks. -/
def indentedElement : List Char :=
  ['a', '\n', ' ', '<', 'B', '>', '\n', '\t', 'x', '\n', ' ', '\t', '\n', 'y']

theorem raw_block_is_run_of_lines_indented :
    (1 < 5 ∧ 5 ≤ (ofText indentedElement).starts.size) ∧
    elementRule (linesOf indentedElement) { last := 5 } 1 5 true {} = (true, {}) ∧
    ∃ content : String,
      elementRule (linesOf indentedElement) { last := 5 } 1 5 false {} =
        (true,
          { line := 3
            found := [.node { kind := "html_block", content := content, lines := some (1, 3) } []] }) ∧
      Text.dropEndWhile (· == '\n') content.toList = [' ', '<', 'B', '>', '\n', '\t', 'x'] := by
  have hsize : 5 ≤ (ofText indentedElement).starts.size := by decide +kernel
  have hfound : (elementRule (linesOf indentedElement) { last := 5 } 1 5 false {}).1 = true ∧
      (elementRule (linesOf indentedElement) { last := 5 } 1 5 false {}).2.line = 3 := by
    decide +kernel
  have hscope : ({ last := 5 } : Scope).indent = 0 := rfl
  obtain ⟨hsilent, -, hblock⟩ := raw_block_is_run_of_lines hscope (by decide : 1 < 5) hsize {}
  obtain ⟨m, content, -, hstate, hcontent⟩ := hblock hfound.1
  obtain rfl : m = 3 := (congrArg RuleState.line hstate).symm.trans hfound.2
  refine ⟨⟨by decide, hsize⟩, ?_, content, Prod.ext hfound.1 hstate, hcontent.trans (by decide +kernel)⟩
  rw [hsilent, hfound.1]

end Markdown

end Mdx
