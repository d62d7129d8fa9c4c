import Mdx.Source.Basic

/-!
# Pieces of a text

Pieces that lie end to end make one piece (`slice_append_slice`), a piece of a piece is a piece
(`slice_slice`), and where the text from an offset on is known to be one part after another, so are the
pieces there (`slice_of_drop`, `drop_of_drop`).
-/

namespace Mdx

variable {src : List Char}

theorem slice_append_slice {a b c : Nat} (hab : a ≤ b) (hbc : b ≤ c) :
    slice src a b ++ slice src b c = slice src a c := by
  have hdrop : src.drop b = (src.drop a).drop (b - a) := by
    rw [List.drop_drop, Nat.add_sub_cancel' hab]
  have hsum : c - a = (b - a) + (c - b) := by omega
  rw [slice, slice, slice, hdrop, hsum, List.take_add]

theorem slice_whole (src : List Char) : slice src 0 src.length = src := by
  rw [slice, Nat.sub_zero, List.drop_zero, List.take_length]

theorem slice_between {p x r : List Char} (h : src = p ++ (x ++ r)) :
    slice src (src.length - (x.length + r.length)) (src.length - r.length) = x := by
  have hlen : src.length = p.length + (x.length + r.length) := by
    rw [h, List.length_append, List.length_append]
  have hstart : src.length - (x.length + r.length) = p.length := by omega
  have hsize : src.length - r.length - p.length = x.length := by omega
  rw [slice, hstart, hsize, h, List.drop_left, List.take_left]

theorem slice_slice {b e i j : Nat} (hi : b ≤ i) (hj : j ≤ e) :
    slice (slice src b e) (i - b) (j - b) = slice src i j := by
  have hstart : b + (i - b) = i := by omega
  have hlen : j - b - (i - b) = j - i := by omega
  have hmin : min (j - i) (e - b - (i - b)) = j - i := by omega
  rw [slice, slice, slice, List.drop_take, List.drop_drop, List.take_take, hstart, hlen, hmin]

section Parts

variable {pos : Nat} {x r : List Char} (h : src.drop pos = x ++ r)

include h

theorem slice_of_drop : slice src pos (pos + x.length) = x := by
  rw [slice, h, Nat.add_sub_cancel_left, List.take_left]

theorem drop_of_drop : src.drop (pos + x.length) = r := by
  rw [← List.drop_drop, h, List.drop_left]

end Parts

theorem drop_of_getElem? {i : Nat} {c : Char} (h : src[i]? = some c) :
    src.drop i = c :: src.drop (i + 1) := by
  obtain ⟨hi, rfl⟩ := List.getElem?_eq_some_iff.mp h
  exact List.drop_eq_getElem_cons hi

/-- The text from an offset on is the piece up to another offset and the text from there on. -/
theorem drop_eq_slice_append {a b : Nat} (hab : a ≤ b) : src.drop a = slice src a b ++ src.drop b := by
  have hdrop : src.drop b = (src.drop a).drop (b - a) := by
    rw [List.drop_drop, Nat.add_sub_cancel' hab]
  rw [slice, hdrop, List.take_append_drop]

end Mdx
