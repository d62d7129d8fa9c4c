import Mathlib.Data.List.DropRight

/-!
# Runs at the start of a list

A reader takes the longest run of characters of a class off the start of a text and goes on with the
rest.  What it takes depends on the text after the run only through the first character that is not
of the class: if the text has one, the run and all that comes before the end of the text stay the same
whatever is put after it (`takeWhile_append_of_mem`, `dropWhile_append_of_mem`).
-/

namespace Mdx

variable {α : Type} {p : α → Bool}

theorem drop_length_takeWhile (p : α → Bool) (s : List α) :
    s.drop (s.takeWhile p).length = s.dropWhile p := by
  have h : (s.takeWhile p ++ s.dropWhile p).drop (s.takeWhile p).length = s.dropWhile p :=
    List.drop_left
  rwa [List.takeWhile_append_dropWhile] at h

theorem takeWhile_append_of_nil {y : List α} (hy : y.takeWhile p = []) (x : List α) :
    (x ++ y).takeWhile p = x.takeWhile p := by
  induction x with
  | nil => exact hy
  | cons c x ih => rw [List.cons_append, List.takeWhile_cons, List.takeWhile_cons, ih]

theorem dropWhile_append_of_nil {y : List α} (hy : y.takeWhile p = []) (x : List α) :
    (x ++ y).dropWhile p = x.dropWhile p ++ y := by
  rw [← drop_length_takeWhile, takeWhile_append_of_nil hy,
    List.drop_append_of_le_length (List.takeWhile_prefix p).length_le, drop_length_takeWhile]

/-! ### Runs that end inside the text -/

section Ends

variable {c : α} (hc : p c = false)

include hc

theorem takeWhile_append_cons (x t : List α) : (x ++ c :: t).takeWhile p = x.takeWhile p :=
  takeWhile_append_of_nil (List.takeWhile_cons_of_neg (Bool.eq_false_iff.mp hc)) x

theorem dropWhile_append_cons (x t : List α) :
    (x ++ c :: t).dropWhile p = x.dropWhile p ++ c :: t :=
  dropWhile_append_of_nil (List.takeWhile_cons_of_neg (Bool.eq_false_iff.mp hc)) x

theorem takeWhile_append_of_mem {s : List α} (h : c ∈ s) (u : List α) :
    (s ++ u).takeWhile p = s.takeWhile p := by
  obtain ⟨x, y, rfl⟩ := List.append_of_mem h
  rw [List.append_assoc, List.cons_append, takeWhile_append_cons hc, takeWhile_append_cons hc]

theorem dropWhile_append_of_mem {s : List α} (h : c ∈ s) (u : List α) :
    (s ++ u).dropWhile p = s.dropWhile p ++ u := by
  obtain ⟨x, y, rfl⟩ := List.append_of_mem h
  rw [List.append_assoc, List.cons_append, dropWhile_append_cons hc, dropWhile_append_cons hc,
    List.append_assoc, List.cons_append]

theorem mem_dropWhile {s : List α} (h : c ∈ s) : c ∈ s.dropWhile p := by
  obtain ⟨x, y, rfl⟩ := List.append_of_mem h
  rw [dropWhile_append_cons hc]
  exact List.mem_append_right _ List.mem_cons_self

end Ends

/-! ### What is dropped, and what is left -/

theorem dropWhile_append_of_head? {x y : List α} (hx : ∀ c ∈ x, p c = true)
    (hy : y.head?.any p = false) : (x ++ y).dropWhile p = y := by
  rw [List.dropWhile_append_of_pos hx]
  cases y with
  | nil => rfl
  | cons c rest => exact List.dropWhile_cons_of_neg (Bool.eq_false_iff.mp hy)

theorem head?_of_dropWhile {s y t : List α} (h : s.dropWhile p = y ++ t) : y.head?.any p = false := by
  have hnot := List.head?_dropWhile_not p s
  rw [h] at hnot
  cases y with
  | nil => rfl
  | cons d y => simpa using hnot

theorem dropWhile_eq_self_or (p : α → Bool) (s : List α) :
    s.dropWhile p = s ∨ ∃ d : α, p d = true ∧ d :: s.dropWhile p <:+ s := by
  induction s with
  | nil => exact .inl rfl
  | cons c rest ih =>
    by_cases hc : p c = true
    · rw [List.dropWhile_cons_of_pos hc]
      rcases ih with heq | ⟨d, hd, hsuf⟩
      · rw [heq]
        exact .inr ⟨c, hc, List.suffix_rfl⟩
      · exact .inr ⟨d, hd, hsuf.trans (List.suffix_cons c rest)⟩
    · exact .inl (List.dropWhile_cons_of_neg hc)

theorem rdrop_eq_nil {r : List α} {n : Nat} (h : r.length ≤ n) : r.rdrop n = [] := by
  rw [List.rdrop, Nat.sub_eq_zero_of_le h, List.take_zero]

theorem dropWhile_cut (p : α → Bool) (s u : List α) :
    s.dropWhile p = ((s ++ u).dropWhile p).rdrop u.length := by
  rw [List.dropWhile_append]
  split
  · rename_i h
    rw [List.isEmpty_iff.mp h, rdrop_eq_nil (List.dropWhile_suffix p).length_le]
  · rw [List.rdrop_append_length]

end Mdx
