import Mdx.Generic.Basic
import Mdx.Proofs.Source.LineIndex

/-!
# Blocks and the rest of the text

An offset of a text is told by the rest of the text that stands there.  The lines of a text start at the
text as a whole and at what comes after its line feeds (`afterFeeds`), so a block goes from one of these to
a line feed or the end of the text (`exists_linesPosition?`).
-/

namespace Mdx

/-- What comes after the line feeds of a text. -/
def afterFeeds : List Char → List (List Char)
  | [] => []
  | c :: rest => if c = '\n' then rest :: afterFeeds rest else afterFeeds rest

theorem mem_afterFeeds_iff {s u : List Char} : u ∈ afterFeeds s ↔ '\n' :: u <:+ s := by
  induction s with
  | nil => simp [afterFeeds]
  | cons c rest ih =>
    rw [afterFeeds, List.suffix_cons_iff, List.cons.injEq]
    split
    next hc => rw [List.mem_cons, ih, hc, eq_self_iff_true, true_and]
    next hc => rw [ih, or_iff_right fun h => hc h.1.symm]

theorem afterFeeds_of_not_mem {s : List Char} (h : '\n' ∉ s) : afterFeeds s = [] := by
  induction s with
  | nil => rfl
  | cons c rest ih =>
    rw [List.mem_cons, not_or] at h
    rw [afterFeeds, if_neg (Ne.symm h.1)]
    exact ih h.2

/-- The rests of a text at the starts of its lines. -/
def lineRests (s : List Char) : List (List Char) :=
  s :: afterFeeds s

theorem suffix_of_mem_lineRests {s u : List Char} (h : u ∈ lineRests s) : u <:+ s := by
  rcases List.mem_cons.mp h with rfl | h
  · exact List.suffix_refl _
  · exact (List.suffix_cons _ _).trans (mem_afterFeeds_iff.mp h)

theorem lineRests_subset {s u : List Char} (h : u ∈ lineRests s) : lineRests u ⊆ lineRests s := by
  intro v hv
  rcases List.mem_cons.mp hv with rfl | hv
  · exact h
  · have hfeed := (mem_afterFeeds_iff.mp hv).trans (suffix_of_mem_lineRests h)
    exact List.mem_cons_of_mem _ (mem_afterFeeds_iff.mpr hfeed)

namespace LineIndex

theorem lineStartsFrom_eq_map (s : List Char) (offset : Nat) :
    lineStartsFrom offset s = (afterFeeds s).map fun u => offset + (s.length - u.length) := by
  induction s generalizing offset with
  | nil => rfl
  | cons c rest ih =>
    -- one character more before all that comes after it
    have hshift : (afterFeeds rest).map (fun u => offset + 1 + (rest.length - u.length)) =
        (afterFeeds rest).map fun u => offset + ((c :: rest).length - u.length) := by
      refine List.map_congr_left fun u hu => ?_
      have hlength := (mem_afterFeeds_iff.mp hu).length_le
      simp only [List.length_cons] at hlength ⊢
      omega
    rw [lineStartsFrom, afterFeeds, ih, hshift]
    split
    · rw [List.map_cons, List.length_cons, Nat.add_sub_cancel_left]
    · rfl

theorem starts_ofText (text : List Char) :
    (ofText text).starts = ((lineRests text).map fun u => text.length - u.length).toArray := by
  have hzero : (lineRests text).map (fun u => text.length - u.length) = 0 :: lineStartsFrom 0 text := by
    rw [lineStartsFrom_eq_map, lineRests, List.map_cons, Nat.sub_self]
    simp
  rw [hzero]
  rfl

theorem length_afterFeeds (s : List Char) : (afterFeeds s).length = s.count '\n' := by
  rw [← length_lineStartsFrom s 0, lineStartsFrom_eq_map, List.length_map]

theorem getD_starts {text u : List Char} {i : Nat} (h : (lineRests text)[i]? = some u) :
    (ofText text).starts.getD i 0 = text.length - u.length := by
  rw [starts_ofText, Array.getD_eq_getD_getElem?, List.getElem?_toArray, List.getElem?_map, h]
  rfl

end LineIndex

/-! ### Positions by the rest of the text -/

/-- The position goes from where the rest of the text is `u` to where it is `v`. -/
structure Position.Spans (text : List Char) (p : Position) (u v : List Char) : Prop where
  start_suffix : u <:+ text
  stop_suffix : v <:+ text
  start_eq : p.start.offset = (text.length - u.length : Nat)
  stop_eq : p.stop.offset = (text.length - v.length : Nat)

theorem LineIndex.spans_span {text u v : List Char} (hu : u <:+ text) (hv : v <:+ text) :
    ((ofText text).span (text.length - u.length : Nat) (text.length - v.length : Nat)).Spans text u
      v := by
  refine ⟨hu, hv, ?_, ?_⟩
  · show ((min ((text.length - u.length : Nat) : Int).toNat text.length : Nat) : Int) = _
    omega
  · show ((min ((text.length - v.length : Nat) : Int).toNat text.length : Nat) : Int) = _
    omega

namespace Generic

/-- The rest of the text at the start of a line, or of the last line. -/
def restFrom (text : List Char) (line : Nat) : List Char :=
  (lineRests text).getD (min line (afterFeeds text).length) []

/-- The rest of the text at the end of a line: its line feed and what is after it, or nothing. -/
def restAfter (text : List Char) (line : Nat) : List Char :=
  ((afterFeeds text)[line]?.map ('\n' :: ·)).getD []

theorem getElem?_restFrom (text : List Char) (line : Nat) :
    (lineRests text)[min line (afterFeeds text).length]? = some (restFrom text line) := by
  have hlt : min line (afterFeeds text).length < (lineRests text).length :=
    Nat.lt_succ_of_le (Nat.min_le_right _ _)
  rw [restFrom, List.getD_eq_getElem?_getD, List.getElem?_eq_getElem hlt, Option.getD_some]

theorem restFrom_mem (text : List Char) (line : Nat) : restFrom text line ∈ lineRests text :=
  List.mem_of_getElem? (getElem?_restFrom text line)

theorem suffix_restAfter (text : List Char) (line : Nat) : restAfter text line <:+ text := by
  rw [restAfter]
  cases h : (afterFeeds text)[line]? with
  | none => exact List.nil_suffix
  | some v => exact mem_afterFeeds_iff.mp (List.mem_of_getElem? h)

theorem start_eq_restFrom (text : List Char) (line : Nat) :
    (LineIndex.ofText text).starts.getD (min line (text.count '\n')) 0 =
      text.length - (restFrom text line).length := by
  rw [← LineIndex.length_afterFeeds]
  exact LineIndex.getD_starts (getElem?_restFrom text line)

theorem lineEnd_eq_restAfter (text : List Char) (line : Nat) :
    (LineIndex.ofText text).lineEnd line = text.length - (restAfter text line).length := by
  have hsize := LineIndex.size_starts text
  rw [← LineIndex.length_afterFeeds] at hsize
  by_cases hlt : line < (afterFeeds text).length
  · have hnext : (lineRests text)[line + 1]? = some (afterFeeds text)[line] :=
      List.getElem?_eq_getElem hlt
    rw [LineIndex.lineEnd_of_lt (by omega), LineIndex.getD_starts hnext, restAfter,
      List.getElem?_eq_getElem hlt, Option.map_some, Option.getD_some, List.length_cons, Nat.sub_sub]
  · rw [LineIndex.lineEnd_of_le (by omega), restAfter, List.getElem?_eq_none (by omega)]
    rfl

/-! ### Positions of lines -/

/-- The position of lines that are counted from the start: a first line after the last one stands for it, and
a last line after it ends where the text does. -/
theorem linesPosition?_eq {text : List Char} {first next : Int} (h0 : 0 ≤ first) :
    linesPosition? (.ofText text) first next = some ((LineIndex.ofText text).span
      ((LineIndex.ofText text).starts.getD (min first.toNat (text.count '\n')) 0 : Nat)
      ((LineIndex.ofText text).lineEnd (max first (next - 1)).toNat : Nat)) := by
  rw [linesPosition?, LineIndex.lineStartAt?_of_nonneg h0, LineIndex.lineEndAt?_of_nonneg (by omega)]
  rfl

/-- **Lines that are counted from the start have a position**, from the start of one to the end of one. -/
theorem exists_linesPosition? (text : List Char) {first next : Int} (h0 : 0 ≤ first) :
    ∃ p : Position, linesPosition? (.ofText text) first next = some p ∧
      p.Spans text (restFrom text first.toNat) (restAfter text (max first (next - 1)).toNat) := by
  rw [linesPosition?_eq h0, start_eq_restFrom, lineEnd_eq_restAfter]
  exact ⟨_, rfl, LineIndex.spans_span (suffix_of_mem_lineRests (restFrom_mem text _))
    (suffix_restAfter text _)⟩

end Generic

end Mdx
