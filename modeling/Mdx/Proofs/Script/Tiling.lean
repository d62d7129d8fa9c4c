import Mathlib.Data.List.Chain
import Mdx.Proofs.Fault.Result
import Mdx.Proofs.Script.Run
import Mdx.Proofs.Source.Slice

/-!
# How statements tile a run

`Runs src pos sts stop` follows a run of statements through the text `src` from the offset `pos` to
`stop`: each statement is indented, is read from its keyword up to where its scan ends (`ReadTo`), and
the next one starts after the line break there; on the line after the last one no statement starts.
Splitting a text gives a run in this sense (`runs_of_splitStatements`).

What a run looks like from outside is in `IsTiling`: the statements lie in order, and nothing is between
them but blanks, a line break and indentation.
-/

namespace Mdx.Script

/-! ### One statement -/

/-- The statement is read at its start, its scan goes on to the offset `stop`, and only blanks are left
off its end. -/
structure Statement.ReadTo (src : List Char) (st : Statement) (stop : Nat) : Prop where
  keyword : keywordHere? (src.drop st.start) = some st.kind
  scan : statementRest st.kind [] (src.drop st.start) = .ok (src.drop stop)
  starts : st.kind.keyword.toList <+: slice src st.start st.stop
  trimmed : (slice src st.start st.stop).getLast?.any Text.isBlank = false
  start_le : st.start ≤ st.stop
  stop_le : st.stop ≤ stop
  le_length : stop ≤ src.length
  trail : ∀ c ∈ slice src st.stop stop, Text.isBlank c = true

namespace Statement.ReadTo

variable {src : List Char} {st : Statement} {stop : Nat}

theorem start_lt (h : st.ReadTo src stop) : st.start < st.stop := by
  refine Nat.lt_of_le_of_ne h.start_le fun heq => keyword_ne_nil st.kind ?_
  have hstarts := h.starts
  rw [heq, slice, Nat.sub_self, List.take_zero] at hstarts
  exact List.prefix_nil.mp hstarts

theorem eq_length_or_break (h : st.ReadTo src stop) :
    stop = src.length ∨ src[stop]? = some '\n' := by
  rcases statementRest_eq_nil_or_cons h.scan with hnil | ⟨next, hnext⟩
  · exact .inl (Nat.le_antisymm h.le_length (List.drop_eq_nil_iff.mp hnil))
  · refine .inr ?_
    rw [← List.head?_drop, hnext]
    rfl

end Statement.ReadTo

/-- **A scan that ends reads a statement.** -/
theorem readTo_of_statementRest {src rest : List Char} {start : Nat} {kind : StatementKind}
    (hkey : keywordHere? (src.drop start) = some kind)
    (hrest : statementRest kind [] (src.drop start) = .ok rest) :
    (statementUpTo src.length kind (src.drop start) rest).start = start ∧
      (statementUpTo src.length kind (src.drop start) rest).ReadTo src (src.length - rest.length) := by
  obtain ⟨text, trail, hbody, hstarts, htrimmed, htrail, hst⟩ := exists_text src.length hkey hrest
  have hstart : start < src.length := lt_length_of_keywordHere? hkey
  have hlen : src.length - start = text.length + (trail.length + rest.length) := by
    rw [← List.length_drop, hbody, List.length_append, List.length_append]
  have hoffset : src.length - (src.drop start).length = start := by
    rw [List.length_drop]
    omega
  have hstop : src.length - rest.length = start + text.length + trail.length := by omega
  have htail := drop_of_drop hbody
  rw [hoffset] at hst
  rw [hst, hstop]
  refine ⟨rfl, hkey, ?_, ?_, ?_, ?_, ?_, ?_, ?_⟩
  · rw [drop_of_drop htail]
    exact hrest
  · rw [slice_of_drop hbody]
    exact hstarts
  · rw [slice_of_drop hbody]
    exact htrimmed
  · exact Nat.le_add_right _ _
  · exact Nat.le_add_right _ _
  · omega
  · rw [slice_of_drop htail]
    exact htrail

/-! ### Runs by their offsets -/

/-- The statements are read one after another from the first offset on, each on a new line, and the
scan of the last one ends at the second offset. -/
inductive Runs (src : List Char) : Nat → List Statement → Nat → Prop
  | last {pos stop : Nat} {st : Statement} (hle : pos ≤ st.start)
      (hindent : ∀ c ∈ slice src pos st.start, Text.isIndent c = true) (hst : st.ReadTo src stop)
      (hnext : statementKeyword? src (stop + 1) = none) : Runs src pos [st] stop
  | more {pos mid stop : Nat} {st : Statement} {sts : List Statement} (hle : pos ≤ st.start)
      (hindent : ∀ c ∈ slice src pos st.start, Text.isIndent c = true) (hst : st.ReadTo src mid)
      (hbreak : src[mid]? = some '\n') (h : Runs src (mid + 1) sts stop) :
      Runs src pos (st :: sts) stop

theorem exists_readTo {src body rest : List Char} {pos : Nat} {kind : StatementKind}
    (hhere : statementHere? (src.drop pos) = some (kind, body))
    (hrest : statementRest kind [] body = .ok rest) :
    pos ≤ (statementUpTo src.length kind body rest).start ∧
      (∀ c ∈ slice src pos (statementUpTo src.length kind body rest).start, Text.isIndent c = true) ∧
      (statementUpTo src.length kind body rest).ReadTo src (src.length - rest.length) := by
  obtain ⟨indent, hdrop, hindent, hkey⟩ := exists_indent hhere
  obtain rfl := drop_of_drop hdrop
  obtain ⟨hstart, hst⟩ := readTo_of_statementRest hkey hrest
  refine ⟨?_, ?_, hst⟩
  · rw [hstart]
    exact Nat.le_add_right pos indent.length
  · rw [hstart, slice_of_drop hdrop]
    exact hindent

theorem statementKeyword?_eq_none {src : List Char} {pos : Nat} (h : statementHere? (src.drop pos) = none) :
    statementKeyword? src pos = none := by
  rw [statementKeyword?, h]
  rfl

/-- **The statements of a run are read one after another.** -/
theorem runs_of_statementRun {src after : List Char} {pos : Nat} {sts : List Statement}
    (h : statementRun src.length (src.drop pos) = .ok (sts, after)) :
    Runs src pos sts (src.length - after.length) := by
  -- each line takes the run further on in the text
  induction hn : src.length - pos using Nat.strong_induction_on generalizing pos sts with
  | _ n ih =>
    subst hn
    obtain ⟨kind, body, rest, hhere, hrest, hcases⟩ := statementRun_cases h
    obtain ⟨hle, hindent, hst⟩ := exists_readTo hhere hrest
    have hsuffix : rest <:+ src :=
      (statementRest_suffix hrest).trans ((suffix_of_statementHere? hhere).trans (List.drop_suffix pos src))
    have hdrop : rest = src.drop (src.length - rest.length) := List.suffix_iff_eq_drop.mp hsuffix
    have htail : rest.tail = src.drop (src.length - rest.length + 1) := by
      conv_lhs => rw [hdrop]
      exact List.tail_drop
    rcases hcases with ⟨rfl, rfl, hnext⟩ | ⟨c, next, more, rfl, hmore, rfl⟩
    · refine .last hle hindent hst (statementKeyword?_eq_none ?_)
      rw [← htail]
      cases after with
      | nil => rfl
      | cons c next => exact hnext c next rfl
    · rw [List.tail_cons] at htail
      have hbreak : src[src.length - (c :: next).length]? = some '\n' := by
        refine hst.eq_length_or_break.resolve_left fun heq => ?_
        rw [heq, List.drop_length] at hdrop
        cases hdrop
      have hlt : pos < src.length - (c :: next).length :=
        Nat.lt_of_le_of_lt hle (Nat.lt_of_lt_of_le hst.start_lt hst.stop_le)
      rw [htail] at hmore
      exact .more hle hindent hst hbreak (ih _ (by have := hst.le_length; omega) hmore rfl)

theorem runs_of_splitStatements {src : List Char} {pos stop : Nat} {index : Option LineIndex}
    {sts : List Statement} (h : splitStatements src pos index = .ok (sts, stop)) :
    Runs src pos sts stop := by
  unfold splitStatements at h
  split at h
  next hrun =>
    cases h
    exact runs_of_statementRun hrun
  · cases h

theorem Runs.exists_readTo {src : List Char} {pos stop : Nat} {sts : List Statement}
    (h : Runs src pos sts stop) {st : Statement} (hst : st ∈ sts) : ∃ e : Nat, st.ReadTo src e := by
  induction h with
  | @last pos stop st' hle hindent hst' hnext =>
    rw [List.mem_singleton.mp hst]
    exact ⟨stop, hst'⟩
  | @more pos mid stop st' sts hle hindent hst' hbreak h ih =>
    rcases List.mem_cons.mp hst with rfl | hst
    · exact ⟨mid, hst'⟩
    · exact ih hst

/-! ### Tilings -/

/-- The statement stands in the text: it is not empty, starts with its keyword, after which a blank, an
opening brace, an asterisk or the end of the text follows, and does not end in a blank. -/
structure Statement.Stands (src : List Char) (st : Statement) : Prop where
  start_lt : st.start < st.stop
  starts : st.kind.keyword.toList <+: slice src st.start st.stop
  keyword_end : isKeywordEnd (src.drop (st.start + st.kind.keyword.toList.length)) = true
  trimmed : (slice src st.start st.stop).getLast?.any Text.isBlank = false

/-- The second statement starts on a line after the first one, and only blanks are between them. -/
def Statement.Precedes (src : List Char) (a b : Statement) : Prop :=
  a.stop ≤ b.start ∧
    ∃ trail indent : List Char, slice src a.stop b.start = trail ++ '\n' :: indent ∧
      (∀ c ∈ trail, Text.isBlank c = true) ∧ ∀ c ∈ indent, Text.isIndent c = true

/-- The statements tile the text from the offset `pos` to the offset `stop`. -/
structure IsTiling (src : List Char) (pos stop : Nat) (sts : List Statement) : Prop where
  first : ∃ st : Statement, sts.head? = some st ∧ pos ≤ st.start ∧
    ∀ c ∈ slice src pos st.start, Text.isIndent c = true
  stands : ∀ st ∈ sts, st.Stands src
  gaps : sts.IsChain (Statement.Precedes src)
  last : ∃ st : Statement, sts.getLast? = some st ∧ st.stop ≤ stop ∧
    ∀ c ∈ slice src st.stop stop, Text.isBlank c = true
  le_length : stop ≤ src.length
  ends : stop = src.length ∨ src[stop]? = some '\n'
  maximal : statementKeyword? src (stop + 1) = none

theorem Statement.ReadTo.stands {src : List Char} {st : Statement} {stop : Nat}
    (h : st.ReadTo src stop) : st.Stands src := by
  refine ⟨h.start_lt, h.starts, ?_, h.trimmed⟩
  obtain ⟨rest, hdrop, hend⟩ := keywordHere?_eq_some_iff.mp h.keyword
  rw [drop_of_drop hdrop]
  exact hend

/-- Between a statement and the next one are the blanks left off its end, the line break that ends it,
and the indentation of the next one. -/
theorem Statement.ReadTo.precedes {src : List Char} {a b : Statement} {mid : Nat}
    (ha : a.ReadTo src mid) (hbreak : src[mid]? = some '\n') (hle : mid + 1 ≤ b.start)
    (hindent : ∀ c ∈ slice src (mid + 1) b.start, Text.isIndent c = true) : a.Precedes src b := by
  have hfeed : slice src mid (mid + 1) = ['\n'] :=
    slice_of_drop (x := ['\n']) (drop_of_getElem? hbreak)
  refine ⟨by have := ha.stop_le; omega, slice src a.stop mid, slice src (mid + 1) b.start, ?_, ha.trail,
    hindent⟩
  calc slice src a.stop b.start
      = slice src a.stop mid ++ (slice src mid (mid + 1) ++ slice src (mid + 1) b.start) := by
        rw [slice_append_slice (Nat.le_succ mid) hle, slice_append_slice ha.stop_le (by omega)]
    _ = slice src a.stop mid ++ '\n' :: slice src (mid + 1) b.start := by
        rw [hfeed, List.singleton_append]

theorem IsTiling.cons {src : List Char} {pos mid stop : Nat} {st : Statement} {sts : List Statement}
    (hle : pos ≤ st.start) (hindent : ∀ c ∈ slice src pos st.start, Text.isIndent c = true)
    (hst : st.ReadTo src mid) (hbreak : src[mid]? = some '\n') (h : IsTiling src (mid + 1) stop sts) :
    IsTiling src pos stop (st :: sts) := by
  obtain ⟨next, hnext, hle', hindent'⟩ := h.first
  obtain ⟨more, rfl⟩ := List.head?_eq_some_iff.mp hnext
  refine ⟨⟨st, rfl, hle, hindent⟩, ?_, ?_, ?_, h.le_length, h.ends, h.maximal⟩
  · exact List.forall_mem_cons.mpr ⟨hst.stands, h.stands⟩
  · exact .cons_cons (hst.precedes hbreak hle' hindent') h.gaps
  · rw [List.getLast?_cons_cons]
    exact h.last

/-- **A run is a tiling.** -/
theorem Runs.isTiling {src : List Char} {pos stop : Nat} {sts : List Statement}
    (h : Runs src pos sts stop) : IsTiling src pos stop sts := by
  induction h with
  | @last pos stop st hle hindent hst hnext =>
    refine ⟨⟨st, rfl, hle, hindent⟩, ?_, .singleton st, ⟨st, rfl, hst.stop_le, hst.trail⟩,
      hst.le_length, hst.eq_length_or_break, hnext⟩
    exact List.forall_mem_singleton.mpr hst.stands
  | more hle hindent hst hbreak h ih => exact ih.cons hle hindent hst hbreak

/-- **Splitting tiles the run.**  Wherever a text is split into statements, they lie in order between the
start and the end of the run.  Each one starts with its keyword and does not end in a blank; before the
first one is indentation, between two are blanks with a line break and then indentation, and after the
last one are blanks.  The run ends with the text or at a line break, and no statement starts on the line
after it. -/
theorem statements_tile_run {src : List Char} {pos stop : Nat} {index : Option LineIndex}
    {sts : List Statement} (h : splitStatements src pos index = .ok (sts, stop)) :
    IsTiling src pos stop sts :=
  (runs_of_splitStatements h).isTiling

/-- A run with a quote mark in a comment, a group that goes over an empty line, wide spaces at the ends of
lines, and a keyword alone on its line. -/
def mixedRun : List Char :=
  "pre\n \timport \x7ba\x7d // '\u00a0\nexport\x7b\n\n b \x7d\u3000\n\timport\n\nz".toList

theorem statements_tile_run_mixed :
    splitStatements mixedRun 4 none = .ok ([⟨.import, 6, 21⟩, ⟨.export, 23, 36⟩, ⟨.import, 39, 45⟩], 45) ∧
      IsTiling mixedRun 4 45 [⟨.import, 6, 21⟩, ⟨.export, 23, 36⟩, ⟨.import, 39, 45⟩] := by
  have h : splitStatements mixedRun 4 none =
      .ok ([⟨.import, 6, 21⟩, ⟨.export, 23, 36⟩, ⟨.import, 39, 45⟩], 45) :=
    eq_ok_of_toOption (by decide +kernel)
  exact ⟨h, statements_tile_run h⟩

end Mdx.Script
