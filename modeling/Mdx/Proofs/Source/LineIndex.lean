import Mathlib.Data.List.DropRight
import Mdx.Source.Basic
import Mdx.Proofs.Source.Slice

/-!
# Lines and columns are what counting gives

The starts of a text's lines are found by one scan, and the line of an offset by halving the list of starts.
Both are compared with plain counting (`Point.counted`): the line of an offset is one more than the number of
line feeds before it, and its column is one more than the number of characters since the last of them.

The scan is described at the line that counting gives (`getElem?_count_lineStartsFrom`,
`lt_of_getElem?_count`): this line starts at or before the offset, and the next one after it.  Only one line
does so, and the halving comes to it (`search_eq`).
-/

namespace Mdx

/-- The line and column of an offset, by counting. -/
def Point.counted (s : List Char) (o : Nat) : Point where
  line := 1 + (s.take o).count '\n'
  column := 1 + ((s.take o).rtakeWhile (· != '\n')).length
  offset := o

/-- A point comes before another one: on an earlier line, or on the same line in an earlier column. -/
def Point.Before (p q : Point) : Prop :=
  p.line < q.line ∨ p.line = q.line ∧ p.column < q.column

/-! ### The last line of a text -/

/-- A character is on the last line of a text only if no line feed is after it. -/
theorem rtakeWhile_cons_of_feed {c : Char} {s : List Char} (h : c = '\n' ∨ '\n' ∈ s) :
    (c :: s).rtakeWhile (· != '\n') = s.rtakeWhile (· != '\n') := by
  induction s using List.reverseRecOn with
  | nil =>
    obtain rfl : c = '\n' := h.resolve_right List.not_mem_nil
    rfl
  | append_singleton s d ih =>
    rw [← List.cons_append, List.rtakeWhile_concat, List.rtakeWhile_concat]
    split
    next hd =>
      have hfeed : c = '\n' ∨ '\n' ∈ s := by
        refine h.imp_right fun hmem => (List.mem_append.mp hmem).resolve_right fun hlast => ?_
        rw [← List.mem_singleton.mp hlast] at hd
        exact absurd hd (by decide)
      rw [ih hfeed]
    next => rfl

theorem rtakeWhile_of_no_feed {s : List Char} (h : '\n' ∉ s) : s.rtakeWhile (· != '\n') = s := by
  rw [List.rtakeWhile_eq_self_iff]
  intro c hc
  rw [bne_iff_ne]
  rintro rfl
  exact h hc

theorem length_lastLine_le (s : List Char) (o : Nat) :
    ((s.take o).rtakeWhile (· != '\n')).length ≤ o :=
  Nat.le_trans (List.rtakeWhile_suffix _ _).length_le (List.length_take_le _ _)

namespace LineIndex

/-! ### The starts of lines -/

theorem mem_lineStartsFrom {s : List Char} {offset x : Nat} (h : x ∈ lineStartsFrom offset s) :
    offset < x ∧ x ≤ offset + s.length := by
  induction s generalizing offset with
  | nil => cases h
  | cons c rest ih =>
    rw [lineStartsFrom] at h
    rw [List.length_cons]
    split at h
    · rcases List.mem_cons.mp h with rfl | h
      · omega
      · have := ih h
        omega
    · have := ih h
      omega

/-- **Each line starts before the next one.** -/
theorem pairwise_lineStartsFrom (s : List Char) (offset : Nat) :
    (lineStartsFrom offset s).Pairwise (· < ·) := by
  induction s generalizing offset with
  | nil => exact .nil
  | cons c rest ih =>
    rw [lineStartsFrom]
    split
    · exact .cons (fun x hx => (mem_lineStartsFrom hx).1) (ih (offset + 1))
    · exact ih (offset + 1)

theorem getElem?_before_start {s : List Char} {offset x : Nat} (h : x ∈ lineStartsFrom offset s) :
    s[x - offset - 1]? = some '\n' := by
  induction s generalizing offset with
  | nil => cases h
  | cons c rest ih =>
    -- a start in the rest is one character further on in the whole text
    have hrest : x ∈ lineStartsFrom (offset + 1) rest → (c :: rest)[x - offset - 1]? = some '\n' := by
      intro hx
      have hlt := (mem_lineStartsFrom hx).1
      have hindex : x - offset - 1 = x - (offset + 1) - 1 + 1 := by omega
      rw [hindex, List.getElem?_cons_succ]
      exact ih hx
    rw [lineStartsFrom] at h
    split at h
    next hc =>
      rcases List.mem_cons.mp h with rfl | h
      · rw [Nat.add_sub_cancel_left, hc]
        rfl
      · exact hrest h
    next => exact hrest h

/-- **The line that counting gives** starts as many characters before the offset as the column says. -/
theorem getElem?_count_lineStartsFrom (s : List Char) (offset : Nat) {o : Nat} (ho : o ≤ s.length) :
    (offset :: lineStartsFrom offset s)[(s.take o).count '\n']? =
      some (offset + (o - ((s.take o).rtakeWhile (· != '\n')).length)) := by
  induction s generalizing offset o with
  | nil =>
    obtain rfl : o = 0 := Nat.le_zero.mp ho
    rfl
  | cons c rest ih =>
    cases o with
    | zero => rfl
    | succ o =>
      have ho : o ≤ rest.length := Nat.le_of_succ_le_succ ho
      have hline := ih (offset + 1) ho
      have hcolumn := length_lastLine_le rest o
      rw [List.take_succ_cons, lineStartsFrom]
      by_cases hc : c = '\n'
      · rw [if_pos hc, hc, List.count_cons_self, List.getElem?_cons_succ, hline,
          rtakeWhile_cons_of_feed (.inl rfl)]
        congr 1
        omega
      · rw [if_neg hc, List.count_cons_of_ne hc]
        by_cases hfeed : '\n' ∈ rest.take o
        · obtain ⟨k, hk⟩ := Nat.exists_eq_succ_of_ne_zero (List.count_pos_iff.mpr hfeed).ne'
          rw [hk, List.getElem?_cons_succ] at hline ⊢
          rw [hline, rtakeWhile_cons_of_feed (.inr hfeed)]
          congr 1
          omega
        · rw [List.count_eq_zero.mpr hfeed, rtakeWhile_of_no_feed, List.length_cons, List.length_take,
            Nat.min_eq_left ho, Nat.sub_self]
          · rfl
          · rw [List.mem_cons, not_or]
            exact ⟨Ne.symm hc, hfeed⟩

theorem lt_of_getElem?_count {s : List Char} {offset o x : Nat}
    (h : (lineStartsFrom offset s)[(s.take o).count '\n']? = some x) : offset + o < x := by
  induction s generalizing offset o with
  | nil => cases h
  | cons c rest ih =>
    cases o with
    | zero => exact (mem_lineStartsFrom (List.mem_of_getElem? h)).1
    | succ o =>
      rw [List.take_succ_cons, lineStartsFrom] at h
      by_cases hc : c = '\n'
      · rw [if_pos hc, hc, List.count_cons_self, List.getElem?_cons_succ] at h
        have := ih h
        omega
      · rw [if_neg hc, List.count_cons_of_ne hc] at h
        have := ih h
        omega

theorem length_lineStartsFrom (s : List Char) (offset : Nat) :
    (lineStartsFrom offset s).length = s.count '\n' := by
  induction s generalizing offset with
  | nil => rfl
  | cons c rest ih =>
    rw [lineStartsFrom]
    split
    next hc => rw [List.length_cons, ih, hc, List.count_cons_self]
    next hc => rw [ih, List.count_cons_of_ne hc]

/-- There is one line more than there are line feeds. -/
theorem size_starts (text : List Char) : (ofText text).starts.size = text.count '\n' + 1 :=
  congrArg (· + 1) (length_lineStartsFrom text 0)

theorem size_starts_pos (text : List Char) : 0 < (ofText text).starts.size :=
  Nat.succ_pos _

theorem getElem?_starts (s : List Char) (i : Nat) :
    (ofText s).starts[i]? = (0 :: lineStartsFrom 0 s)[i]? :=
  List.getElem?_toArray ..

theorem starts_lt_starts (text : List Char) {i j : Nat} (hij : i < j)
    (hj : j < (ofText text).starts.size) :
    (ofText text).starts.getD i 0 < (ofText text).starts.getD j 0 := by
  have hall : (0 :: lineStartsFrom 0 text).Pairwise (· < ·) :=
    .cons (fun x hx => (mem_lineStartsFrom hx).1) (pairwise_lineStartsFrom text 0)
  have hlt := List.pairwise_iff_getElem.mp hall i j (hij.trans hj) hj hij
  rwa [Array.getD_eq_getD_getElem?, Array.getD_eq_getD_getElem?,
    Array.getElem?_eq_getElem (hij.trans hj), Array.getElem?_eq_getElem hj]

theorem starts_le_starts (text : List Char) {i j : Nat} (hij : i ≤ j)
    (hj : j < (ofText text).starts.size) :
    (ofText text).starts.getD i 0 ≤ (ofText text).starts.getD j 0 := by
  rcases Nat.lt_or_eq_of_le hij with hlt | rfl
  · exact Nat.le_of_lt (starts_lt_starts text hlt hj)
  · exact Nat.le_refl _

theorem starts_le_length (text : List Char) (i : Nat) :
    (ofText text).starts.getD i 0 ≤ text.length := by
  rw [Array.getD_eq_getD_getElem?, getElem?_starts]
  cases hi : (0 :: lineStartsFrom 0 text)[i]? with
  | none => exact Nat.zero_le _
  | some x =>
    rcases List.mem_cons.mp (List.mem_of_getElem? hi) with rfl | hmem
    · exact Nat.zero_le _
    · have := (mem_lineStartsFrom hmem).2
      rw [Option.getD_some]
      omega

/-! ### The search -/

/-- **The halving comes to the only line** that starts at or before the offset while the next one does not. -/
theorem search_eq {starts : Array Nat} {o k : Nat}
    (hincreasing : ∀ i j : Nat, i < j → j < starts.size → starts.getD i 0 < starts.getD j 0)
    (hbefore : starts.getD k 0 ≤ o) (hafter : k + 1 < starts.size → o < starts.getD (k + 1) 0)
    {lo hi : Nat} (hlo : lo ≤ k) (hk : k ≤ hi) (hhi : hi < starts.size) :
    search starts o lo hi = k := by
  have hmono : ∀ i j : Nat, i ≤ j → j < starts.size → starts.getD i 0 ≤ starts.getD j 0 := by
    intro i j hij hj
    rcases Nat.lt_or_eq_of_le hij with hij | rfl
    · exact Nat.le_of_lt (hincreasing i j hij hj)
    · exact Nat.le_refl _
  fun_induction search starts o lo hi with
  | case1 lo hi hlt mid hmid ih =>
    refine ih ?_ hk hhi
    -- the line after `k` starts after the offset, so `mid` is not beyond `k`
    by_contra hkm
    have hnext := hmono (k + 1) mid (by omega) (by omega)
    have := hafter (by omega)
    omega
  | case2 lo hi hlt mid hmid ih =>
    have hkm : k < mid := by
      by_contra hmk
      have := hmono mid k (by omega) (by omega)
      omega
    exact ih hlo (by omega) (by omega)
  | case3 lo hi hlt => omega

theorem clamp_eq (s : List Char) (offset : Int) :
    (ofText s).clamp offset = (max 0 (min offset s.length)).toNat := by
  show min offset.toNat s.length = _
  omega

section Counted

variable {s : List Char} {o : Nat}

theorem getElem?_starts_count (ho : o ≤ s.length) :
    (ofText s).starts[(s.take o).count '\n']? =
      some (o - ((s.take o).rtakeWhile (· != '\n')).length) := by
  rw [getElem?_starts, getElem?_count_lineStartsFrom s 0 ho, Nat.zero_add]

/-- The search comes to the line that counting gives. -/
theorem search_eq_count (ho : o ≤ s.length) :
    search (ofText s).starts o 0 ((ofText s).starts.size - 1) = (s.take o).count '\n' := by
  have hstart := getElem?_starts_count ho
  have hlt : (s.take o).count '\n' < (ofText s).starts.size := (Array.getElem?_eq_some_iff.mp hstart).1
  refine search_eq (fun i j => starts_lt_starts s) ?_ ?_ (Nat.zero_le _) (by omega) (by omega)
  · rw [Array.getD_eq_getD_getElem?, hstart, Option.getD_some]
    omega
  · intro hnext
    have hget := Array.getElem?_eq_getElem hnext
    rw [Array.getD_eq_getD_getElem?, hget, Option.getD_some]
    rw [getElem?_starts, List.getElem?_cons_succ] at hget
    have := lt_of_getElem?_count hget
    omega

theorem point_of_le (ho : o ≤ s.length) : (ofText s).point o = Point.counted s o := by
  have hcolumn := length_lastLine_le s o
  have hclamp : (ofText s).clamp o = o := by
    rw [clamp_eq]
    omega
  unfold point
  dsimp only
  rw [hclamp, search_eq_count ho, Array.getD_eq_getD_getElem?, getElem?_starts_count ho,
    Option.getD_some, Point.counted, Point.mk.injEq]
  omega

/-- **A point is what counting gives**, after the offset is moved into the text. -/
theorem point_eq_counted (s : List Char) (offset : Int) :
    (ofText s).point offset = Point.counted s ((ofText s).clamp offset) := by
  have hle : (ofText s).clamp offset ≤ s.length := Nat.min_le_right _ _
  have hclamp : (ofText s).clamp ((ofText s).clamp offset : Nat) = (ofText s).clamp offset := by
    rw [clamp_eq, clamp_eq]
    omega
  rw [← point_of_le hle]
  unfold point
  rw [hclamp]

theorem exists_start_counted (ho : o ≤ s.length) :
    ∃ start : Nat, (ofText s).starts[((Point.counted s o).line - 1).toNat]? = some start ∧
      start + (Point.counted s o).column - 1 = o := by
  have hcolumn := length_lastLine_le s o
  have hline : ((Point.counted s o).line - 1).toNat = (s.take o).count '\n' := by
    dsimp only [Point.counted]
    omega
  refine ⟨_, hline ▸ getElem?_starts_count ho, ?_⟩
  dsimp only [Point.counted]
  omega

/-- **Points are in the order of their offsets.** -/
theorem counted_before {a b : Nat} (hab : a < b) (hb : b ≤ s.length) :
    (Point.counted s a).Before (Point.counted s b) := by
  have hcount : (s.take a).count '\n' ≤ (s.take b).count '\n' :=
    (List.take_prefix_take_left (Nat.le_of_lt hab)).sublist.count_le _
  obtain ⟨i, hi, hai⟩ := exists_start_counted (Nat.le_trans (Nat.le_of_lt hab) hb)
  obtain ⟨j, hj, hbj⟩ := exists_start_counted hb
  rcases Nat.lt_or_eq_of_le hcount with hlt | heq
  · left
    show (1 + ((s.take a).count '\n' : Nat) : Int) < 1 + ((s.take b).count '\n' : Nat)
    omega
  · have hline : (Point.counted s a).line = (Point.counted s b).line := by
      show (1 + ((s.take a).count '\n' : Nat) : Int) = 1 + ((s.take b).count '\n' : Nat)
      rw [heq]
    -- on one line the columns differ as the offsets do
    obtain rfl : i = j := Option.some.inj (hi.symm.trans (hline ▸ hj))
    exact .inr ⟨hline, by omega⟩

end Counted

/-! ### The text of the lines -/

theorem lineEnd_of_lt {s : List Char} {i : Nat} (h : i + 1 < (ofText s).starts.size) :
    (ofText s).lineEnd i = (ofText s).starts.getD (i + 1) 0 - 1 :=
  if_pos h

theorem lineEnd_of_le {s : List Char} {i : Nat} (h : (ofText s).starts.size ≤ i + 1) :
    (ofText s).lineEnd i = s.length :=
  if_neg (Nat.not_lt_of_le h)

theorem drop_start {s : List Char} {i : Nat} (h : i + 1 < (ofText s).starts.size) :
    s.drop ((ofText s).starts.getD i 0) =
      slice s ((ofText s).starts.getD i 0) ((ofText s).lineEnd i) ++
        '\n' :: s.drop ((ofText s).starts.getD (i + 1) 0) := by
  have hlt : (ofText s).starts.getD i 0 < (ofText s).starts.getD (i + 1) 0 :=
    starts_lt_starts s (Nat.lt_succ_self i) h
  have hmem : (ofText s).starts.getD (i + 1) 0 ∈ lineStartsFrom 0 s := by
    have hget := Array.getElem?_eq_getElem h
    rw [Array.getD_eq_getD_getElem?, hget, Option.getD_some]
    rw [getElem?_starts, List.getElem?_cons_succ] at hget
    exact List.mem_of_getElem? hget
  have hfeed := getElem?_before_start hmem
  have hsucc : (ofText s).starts.getD (i + 1) 0 - 1 + 1 = (ofText s).starts.getD (i + 1) 0 := by omega
  rw [Nat.sub_zero] at hfeed
  rw [lineEnd_of_lt h, ← hsucc, ← drop_of_getElem? hfeed, hsucc]
  exact drop_eq_slice_append (by omega)

/-- The text of a line, without the line feed after it. -/
def lineText (src : List Char) (i : Nat) : List Char :=
  slice src ((ofText src).starts.getD i 0) ((ofText src).lineEnd i)

section LineText

variable {src : List Char} {i : Nat}

theorem mem_lineStartsFrom_of_feed {s : List Char} {offset o : Nat} (h : s[o]? = some '\n') :
    offset + o + 1 ∈ lineStartsFrom offset s := by
  induction s generalizing offset o with
  | nil => simp at h
  | cons c rest ih =>
    rw [lineStartsFrom]
    cases o with
    | zero =>
      have hc : c = '\n' := by simpa using h
      rw [if_pos hc]
      exact List.mem_cons_self
    | succ o =>
      have hrest : offset + 1 + o + 1 ∈ lineStartsFrom (offset + 1) rest := ih (by simpa using h)
      have hsum : offset + (o + 1) + 1 = offset + 1 + o + 1 := by omega
      rw [hsum]
      split
      · exact List.mem_cons_of_mem _ hrest
      · exact hrest

theorem exists_start_of_feed {o : Nat} (h : src[o]? = some '\n') :
    ∃ j < (ofText src).starts.size, (ofText src).starts.getD j 0 = o + 1 := by
  have hmem : o + 1 ∈ 0 :: lineStartsFrom 0 src :=
    List.mem_cons_of_mem 0 (Nat.zero_add o ▸ mem_lineStartsFrom_of_feed h)
  obtain ⟨j, hj, hget⟩ := List.mem_iff_getElem.mp hmem
  refine ⟨j, hj, ?_⟩
  rw [Array.getD_eq_getD_getElem?, getElem?_starts, List.getElem?_eq_getElem hj, hget, Option.getD_some]

theorem not_mem_lineText (hi : i < (ofText src).starts.size) : '\n' ∉ lineText src i := by
  intro hmem
  obtain ⟨k, hk, hget⟩ := List.mem_iff_getElem.mp hmem
  rw [lineText, slice, List.length_take, List.length_drop] at hk
  have hfeed : src[(ofText src).starts.getD i 0 + k]? = some '\n' := by
    rw [List.getElem?_eq_getElem (by omega), ← hget]
    simp [lineText, slice]
  obtain ⟨j, hj, hstart⟩ := exists_start_of_feed hfeed
  -- the line after the feed would start within line `i`
  have hij : i < j := by
    by_contra hji
    have := starts_le_starts src (Nat.le_of_not_lt hji) hi
    omega
  have hend : (ofText src).lineEnd i = (ofText src).starts.getD (i + 1) 0 - 1 := lineEnd_of_lt (by omega)
  have hnext : (ofText src).starts.getD (i + 1) 0 ≤ (ofText src).starts.getD j 0 :=
    starts_le_starts src hij hj
  omega

theorem start_le_lineEnd (src : List Char) (i : Nat) :
    (ofText src).starts.getD i 0 ≤ (ofText src).lineEnd i := by
  by_cases hi : i + 1 < (ofText src).starts.size
  · have := starts_lt_starts src (Nat.lt_add_one i) hi
    rw [lineEnd_of_lt hi]
    omega
  · rw [lineEnd_of_le (Nat.le_of_not_lt hi)]
    exact starts_le_length src i

theorem lineEnd_le_length (src : List Char) (i : Nat) : (ofText src).lineEnd i ≤ src.length := by
  by_cases hi : i + 1 < (ofText src).starts.size
  · rw [lineEnd_of_lt hi]
    exact (Nat.sub_le _ _).trans (starts_le_length src (i + 1))
  · rw [lineEnd_of_le (Nat.le_of_not_lt hi)]

/-- **Lines end in their order**, also those that the text does not have. -/
theorem lineEnd_le_lineEnd (src : List Char) {i j : Nat} (hij : i ≤ j) :
    (ofText src).lineEnd i ≤ (ofText src).lineEnd j := by
  by_cases hj : j + 1 < (ofText src).starts.size
  · have := starts_le_starts src (Nat.add_le_add_right hij 1) hj
    rw [lineEnd_of_lt hj, lineEnd_of_lt (by omega)]
    omega
  · rw [lineEnd_of_le (Nat.le_of_not_lt hj)]
    exact lineEnd_le_length src i

theorem start_le_lineEnd_of_le (src : List Char) {i j : Nat} (hij : i ≤ j) :
    (ofText src).starts.getD i 0 ≤ (ofText src).lineEnd j :=
  (start_le_lineEnd src i).trans (lineEnd_le_lineEnd src hij)

/-- A line, its line feed and the lines after it are one piece of the text. -/
theorem lineText_append {e : Nat} (hi : i + 1 < (ofText src).starts.size)
    (he : (ofText src).starts.getD (i + 1) 0 ≤ e) :
    lineText src i ++ '\n' :: slice src ((ofText src).starts.getD (i + 1) 0) e =
      slice src ((ofText src).starts.getD i 0) e := by
  have hlt := starts_lt_starts src (Nat.lt_add_one i) hi
  have hle := starts_le_length src (i + 1)
  have hdrop : src.drop ((ofText src).starts.getD i 0) =
      (lineText src i ++ ['\n']) ++ src.drop ((ofText src).starts.getD (i + 1) 0) := by
    rw [drop_start hi, List.append_assoc]
    rfl
  have hlength : (ofText src).starts.getD i 0 + (lineText src i ++ ['\n']).length =
      (ofText src).starts.getD (i + 1) 0 := by
    have := congrArg List.length hdrop
    simp only [List.length_append, List.length_drop, List.length_singleton] at this ⊢
    omega
  have hline := slice_of_drop hdrop
  rw [hlength] at hline
  rw [← slice_append_slice (Nat.le_of_lt hlt) he, hline, List.append_assoc]
  rfl

end LineText

/-- **Lines one after another, joined,** are the text from the start of the first one to the end of the last
one. -/
theorem intercalate_lines {s : List Char} (n i : Nat) (h : i + n < (ofText s).starts.size) :
    List.intercalate ['\n'] ((List.range' i (n + 1)).map (lineText s)) =
      slice s ((ofText s).starts.getD i 0) ((ofText s).lineEnd (i + n)) := by
  induction n generalizing i with
  | zero =>
    rw [Nat.zero_add, List.range'_one, List.map_singleton, List.intercalate_singleton]
    rfl
  | succ n ih =>
    have hsum : i + (n + 1) = i + 1 + n := by omega
    have hrest := ih (i + 1) (by omega)
    rw [List.range'_succ, List.map_cons] at hrest
    rw [List.range'_succ, List.map_cons, List.range'_succ, List.map_cons, List.intercalate_cons_cons,
      hrest, hsum, List.append_assoc]
    exact lineText_append (by omega) (start_le_lineEnd_of_le s (Nat.le_add_right _ _))

/-- **The lines from one on, joined,** are the text from its start on. -/
theorem intercalate_lines_from {s : List Char} (n i : Nat) (h : i + (n + 1) = (ofText s).starts.size) :
    List.intercalate ['\n'] ((List.range' i (n + 1)).map fun i =>
      slice s ((ofText s).starts.getD i 0) ((ofText s).lineEnd i)) =
        s.drop ((ofText s).starts.getD i 0) := by
  refine (intercalate_lines n i (by omega)).trans ?_
  rw [lineEnd_of_le (by omega), slice, ← List.length_drop, List.take_length]

/-! ### Lines counted from the start -/

theorem lineStartAt?_of_nonneg {s : List Char} {line : Int} (h : 0 ≤ line) :
    (ofText s).lineStartAt? line =
      some ((ofText s).starts.getD (min line.toNat (s.count '\n')) 0 : Int) := by
  have hnear : (min line ((s.count '\n' + 1 : Nat) - 1 : Int)).toNat = min line.toNat (s.count '\n') := by
    omega
  unfold lineStartAt?
  rw [size_starts]
  dsimp only
  rw [if_neg (by omega), if_neg (by omega), hnear]

theorem lineEndAt?_of_nonneg {s : List Char} {line : Int} (h : 0 ≤ line) :
    (ofText s).lineEndAt? line = some ((ofText s).lineEnd line.toNat : Int) := by
  have hnext : (line + 1).toNat = line.toNat + 1 := by omega
  unfold lineEndAt?
  dsimp only
  by_cases hlt : line.toNat + 1 < (ofText s).starts.size
  · have hpos := starts_lt_starts s (j := line.toNat + 1) (Nat.succ_pos _) hlt
    rw [if_pos (by omega), if_neg (by omega), if_neg (by omega), lineEnd_of_lt hlt, hnext,
      Int.natCast_sub (by omega)]
    rfl
  · rw [if_neg (by omega), lineEnd_of_le (Nat.le_of_not_lt hlt)]
    rfl

/-- **A point is what counting gives**, for every offset, moved into the text if it is outside; it leads back
to the offset by the start of its line, points are in the order of their offsets, and the lines that the
index tells, joined by line feeds, are the text. -/
theorem point_is_counted (s : List Char) :
    (∀ offset : Int, (ofText s).point offset =
      Point.counted s (max 0 (min offset s.length)).toNat) ∧
    (∀ offset : Int, ∃ start : Nat,
      (ofText s).starts[(((ofText s).point offset).line - 1).toNat]? = some start ∧
      start + ((ofText s).point offset).column - 1 = max 0 (min offset s.length)) ∧
    (∀ a b : Nat, a < b → b ≤ s.length → ((ofText s).point a).Before ((ofText s).point b)) ∧
    List.intercalate ['\n'] ((List.range (ofText s).starts.size).map fun i =>
      slice s ((ofText s).starts.getD i 0) ((ofText s).lineEnd i)) = s := by
  refine ⟨fun offset => ?_, fun offset => ?_, fun a b hab hb => ?_, ?_⟩
  · rw [point_eq_counted, clamp_eq]
  · obtain ⟨start, hstart, hoffset⟩ :=
      exists_start_counted (s := s) (o := (ofText s).clamp offset) (Nat.min_le_right _ _)
    rw [point_eq_counted]
    refine ⟨start, hstart, hoffset.trans ?_⟩
    rw [clamp_eq]
    omega
  · rw [point_of_le (Nat.le_trans (Nat.le_of_lt hab) hb), point_of_le hb]
    exact counted_before hab hb
  · obtain ⟨n, hn⟩ := Nat.exists_eq_succ_of_ne_zero (size_starts_pos s).ne'
    rw [List.range_eq_range', hn, intercalate_lines_from n 0 (by omega)]
    rfl

/-- A text with an empty line, and offsets outside of it. -/
theorem point_is_counted_empty_line :
    (2 < 3 ∧ 3 ≤ ['a', 'b', '\n', '\n', 'c'].length) ∧
    ((ofText ['a', 'b', '\n', '\n', 'c']).point (2 : Nat)).Before
      ((ofText ['a', 'b', '\n', '\n', 'c']).point (3 : Nat)) ∧
    (ofText ['a', 'b', '\n', '\n', 'c']).point (-5) = ⟨1, 1, 0⟩ ∧
    (ofText ['a', 'b', '\n', '\n', 'c']).point 99 = ⟨3, 2, 5⟩ := by
  obtain ⟨hcounted, -, hbefore, -⟩ := point_is_counted ['a', 'b', '\n', '\n', 'c']
  exact ⟨by decide, hbefore 2 3 (by decide) (by decide), hcounted (-5), hcounted 99⟩

end LineIndex

end Mdx
