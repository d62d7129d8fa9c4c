import Mdx.Proofs.Generic.Located

/-!
# The positions of blocks are nested

A block has the numbers of its first line and of the line after its last one.  The grammar takes a carriage
return for the end of a line too, so it may count more lines than the line index does, and both numbers may be
beyond the last line of the text.  The start of a block is then that of the last line, and the end that of the
text: the two numbers are moved into the text in different ways.

The two ways fit together.  Lines start in their order and end in their order, and no line ends before it
starts, so the position of some lines is inside the text and within the position of more lines.  It is exactly
the lines that the text has of them (`Position.OfLines`): it starts in the first column of the first one, and
its text is theirs, joined by line feeds.
-/

namespace Mdx

/-- A point is at another one or before it, by their offsets as by their lines and columns. -/
def Point.AtOrBefore (p q : Point) : Prop :=
  p.offset ≤ q.offset ∧ (p = q ∨ p.Before q)

/-- A position lies within another one: it starts no earlier and stops no later. -/
structure Position.Within (inner outer : Position) : Prop where
  start : outer.start.AtOrBefore inner.start
  stop : inner.stop.AtOrBefore outer.stop

/-- The lines of a text from the line `first` to before the line `next`, counted from zero: those of them that
the text has, and its last line if it has none. -/
def linesBetween (text : List Char) (first next : Nat) : List (List Char) :=
  ((text.splitOn '\n').take next).drop (min first (text.count '\n'))

/-- The position of the lines from `first` to before `next`. -/
structure Position.OfLines (text : List Char) (first next : Nat) (p : Position) : Prop where
  start_counted : p.start = Point.counted text p.start.offset.toNat
  stop_counted : p.stop = Point.counted text p.stop.offset.toNat
  start_line : p.start.line = (min first (text.count '\n') : Nat) + 1
  start_column : p.start.column = 1
  text_eq : slice text p.start.offset.toNat p.stop.offset.toNat =
    List.intercalate ['\n'] (linesBetween text first next)

namespace LineIndex

variable {text : List Char}

/-! ### Points and lines -/

/-- **Points are in the order of their offsets**, also of offsets outside the text. -/
theorem atOrBefore_point (text : List Char) {a b : Int} (h : a ≤ b) :
    ((ofText text).point a).AtOrBefore ((ofText text).point b) := by
  have hclamp : (ofText text).clamp a ≤ (ofText text).clamp b := by
    rw [clamp_eq, clamp_eq]
    omega
  rw [point_eq_counted, point_eq_counted]
  refine ⟨Int.ofNat_le.mpr hclamp, ?_⟩
  -- two offsets outside the text may become one
  rcases Nat.lt_or_eq_of_le hclamp with hlt | heq
  · exact .inr (counted_before hlt (Nat.min_le_right _ _))
  · exact .inl (congrArg (Point.counted text) heq)

/-- **More lines have a span around that of some of them**, wherever the text ends. -/
theorem within_lines (text : List Char) {first last first' last' : Nat} (hfirst : first ≤ first')
    (hlast : last' ≤ last) :
    ((ofText text).span ((ofText text).starts.getD (min first' (text.count '\n')) 0 : Nat)
        ((ofText text).lineEnd last' : Nat)).Within
      ((ofText text).span ((ofText text).starts.getD (min first (text.count '\n')) 0 : Nat)
        ((ofText text).lineEnd last : Nat)) := by
  have hsize := size_starts text
  constructor
  · apply atOrBefore_point
    exact Int.ofNat_le.mpr (starts_le_starts text (by omega) (by omega))
  · apply atOrBefore_point
    exact Int.ofNat_le.mpr (lineEnd_le_lineEnd text hlast)

theorem counted_start {i : Nat} (hi : i < (ofText text).starts.size) :
    Point.counted text ((ofText text).starts.getD i 0) =
      ⟨(i : Int) + 1, 1, ((ofText text).starts.getD i 0 : Nat)⟩ := by
  have hle := starts_le_length text i
  have hline : (text.take ((ofText text).starts.getD i 0)).count '\n' = i := by
    rw [← search_eq_count hle]
    exact search_eq (fun _ _ => starts_lt_starts text) (Nat.le_refl _)
      (starts_lt_starts text (Nat.lt_add_one i)) (Nat.zero_le _) (by omega) (by omega)
  have hcolumn : ((text.take ((ofText text).starts.getD i 0)).rtakeWhile (· != '\n')).length = 0 := by
    have hshort := length_lastLine_le text ((ofText text).starts.getD i 0)
    have hstart := congrArg (Option.getD · 0) (getElem?_starts_count hle)
    rw [hline] at hstart
    rw [Option.getD_some, ← Array.getD_eq_getD_getElem?] at hstart
    omega
  rw [Point.counted, hline, hcolumn, Point.mk.injEq]
  omega

theorem splitOn_eq_map_lineText (text : List Char) :
    text.splitOn '\n' = (List.range (text.count '\n' + 1)).map (lineText text) := by
  have hjoin : List.intercalate ['\n'] ((List.range (text.count '\n' + 1)).map (lineText text)) = text := by
    rw [List.range_eq_range']
    refine (intercalate_lines_from (text.count '\n') 0 ?_).trans rfl
    rw [size_starts, Nat.zero_add]
  have hfree : ∀ line ∈ (List.range (text.count '\n' + 1)).map (lineText text), '\n' ∉ line := by
    intro line hline
    obtain ⟨i, hi, rfl⟩ := List.mem_map.mp hline
    exact not_mem_lineText ((List.mem_range.mp hi).trans_eq (size_starts text).symm)
  have hsplit := List.splitOn_intercalate '\n' hfree (by simp)
  rwa [hjoin] at hsplit

theorem lineEnd_min (text : List Char) (i : Nat) :
    (ofText text).lineEnd (min i (text.count '\n')) = (ofText text).lineEnd i := by
  have hsize := size_starts text
  rcases Nat.le_total i (text.count '\n') with hi | hi
  · rw [Nat.min_eq_left hi]
  · rw [lineEnd_of_le (by omega), lineEnd_of_le (by omega)]

/-- **The text from the start of a line to the end of a line** is that of the lines between. -/
theorem slice_lines (text : List Char) {first next : Nat} (h : first < next) :
    slice text ((ofText text).starts.getD (min first (text.count '\n')) 0)
        ((ofText text).lineEnd (next - 1)) =
      List.intercalate ['\n'] (linesBetween text first next) := by
  -- `n` lines that the text has come after the first one
  obtain ⟨n, hn⟩ : ∃ n, min (next - 1) (text.count '\n') = min first (text.count '\n') + n :=
    Nat.exists_eq_add_of_le (by omega)
  have hcount : min next (text.count '\n' + 1) - min first (text.count '\n') = n + 1 := by omega
  have hsize := size_starts text
  rw [← lineEnd_min, hn, ← intercalate_lines n _ (by omega), linesBetween, splitOn_eq_map_lineText,
    ← List.map_take, ← List.map_drop, List.take_range, List.range_eq_range', List.drop_range', hcount,
    Nat.zero_add, Nat.mul_one]

/-- **The span from the start of a line to the end of a line** is the position of the lines between. -/
theorem ofLines_span (text : List Char) {first next : Nat} (h : first < next) :
    ((ofText text).span ((ofText text).starts.getD (min first (text.count '\n')) 0 : Nat)
      ((ofText text).lineEnd (next - 1) : Nat)).OfLines text first next := by
  have hfirst : min first (text.count '\n') < (ofText text).starts.size := by
    rw [size_starts]
    omega
  have hstart := counted_start hfirst
  rw [span, point_of_le (starts_le_length text _), point_of_le (lineEnd_le_length text _)]
  exact ⟨rfl, rfl, congrArg Point.line hstart, congrArg Point.column hstart, slice_lines text h⟩

end LineIndex

namespace Generic

open Mdx.Markdown

/-! ### Blocks -/

theorem blockPosition_eq (text : List Char) {h : SyntaxHead} {first next : Int}
    (hlines : h.lines = some (first, next)) (hnonneg : 0 ≤ first) (hlt : first < next) :
    blockPosition (.ofText text) h = .ok (some ((LineIndex.ofText text).span
      ((LineIndex.ofText text).starts.getD (min first.toNat (text.count '\n')) 0 : Nat)
      ((LineIndex.ofText text).lineEnd (next.toNat - 1) : Nat))) := by
  have hlast : (max first (next - 1)).toNat = next.toNat - 1 := by omega
  rw [blockPosition, hlines]
  dsimp only
  rw [linesPosition?_eq hnonneg, hlast]

/-- **Blocks have positions that are ordered, inside the text and nested**, whatever lines they claim, also
beyond the last line of the text: a block has the position of its lines, and a block with some of these lines
has a position within it. -/
theorem block_positions_are_nested (text : List Char) (outer : SyntaxHead) {first next : Int}
    (hlines : outer.lines = some (first, next)) (hnonneg : 0 ≤ first) (hlt : first < next) :
    ∃ p : Position, blockPosition (.ofText text) outer = .ok (some p) ∧ p.Inside text.length ∧
      p.OfLines text first.toNat next.toNat ∧
      ∀ (inner : SyntaxHead) (first' next' : Int), inner.lines = some (first', next') →
        first ≤ first' → first' < next' → next' ≤ next →
          ∃ q : Position, blockPosition (.ofText text) inner = .ok (some q) ∧ q.Within p := by
  refine ⟨_, blockPosition_eq text hlines hnonneg hlt, LineIndex.inside_lines text (by omega),
    LineIndex.ofLines_span text (by omega), ?_⟩
  intro inner first' next' hlines' hfirst hlt' hnext
  have hnonneg' : 0 ≤ first' := Int.le_trans hnonneg hfirst
  refine ⟨_, blockPosition_eq text hlines' hnonneg' hlt', LineIndex.within_lines text ?_ ?_⟩
  · exact Int.toNat_le_toNat hfirst
  · omega

/-- In a text of three lines, a block that goes beyond the last one, and a block in it that begins there. -/
theorem block_positions_are_nested_beyond_text :
    ∃ p : Position,
      blockPosition (.ofText ['a', 'b', '\n', '\n', 'c']) { kind := "blockquote", lines := some (1, 9) } =
        .ok (some p) ∧
      p.Inside 5 ∧ p.start.line = 2 ∧ p.start.column = 1 ∧
      slice ['a', 'b', '\n', '\n', 'c'] p.start.offset.toNat p.stop.offset.toNat = ['\n', 'c'] ∧
      ∃ q : Position,
        blockPosition (.ofText ['a', 'b', '\n', '\n', 'c']) { kind := "paragraph", lines := some (5, 7) } =
          .ok (some q) ∧
        q.Within p := by
  obtain ⟨p, hp, hinside, hof, hnested⟩ := block_positions_are_nested ['a', 'b', '\n', '\n', 'c']
    { kind := "blockquote", lines := some (1, 9) } rfl (by decide) (by decide)
  exact ⟨p, hp, hinside, hof.start_line, hof.start_column, hof.text_eq,
    hnested { kind := "paragraph", lines := some (5, 7) } 5 7 rfl (by decide) (by decide) (by decide)⟩

end Generic

end Mdx
