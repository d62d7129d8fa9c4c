import Mdx.Proofs.Source.Slice
import Mdx.Proofs.Text.Runs
import Mdx.Script.Group

/-!
# Literals and groups of a cut text

A text `s ++ u` is cut after `s`.  The scanners of script code look ahead, so what they read in
`s` alone need not be what they read in `s ++ u`.  This file says how the two differ.

* A literal ends in `s` where it ends in `s ++ u`, or with `s` if that is earlier
  (`literalRest?_cut`).  The one exception is a slash at the very end of `s`, which `u` may turn
  into the start of a comment.
* A group that ends within `s` ends at the same place in both (`groupRest?_append_iff`): a literal
  that the cut shortens reaches to the end of `s`, and no group ends there.
* By its offsets, a literal goes forward and stays within the text, and a cut at `k` makes the end `e` of a
  literal the smaller one of `e` and `k` (`literal_skipping_is_stable`).

All this rests on the fact that a scanner gives back an end of the text it was given.
-/

namespace Mdx.Script

/-! ### What is left is an end of the text -/

theorem quoteRest_suffix (mark : Char) (s : List Char) : quoteRest mark s <:+ s := by
  fun_induction quoteRest mark s with
  | case1 => exact List.suffix_rfl
  | case2 c hc => exact List.nil_suffix
  | case3 c hc d rest ih =>
    exact ih.trans ((List.suffix_cons d rest).trans (List.suffix_cons c (d :: rest)))
  | case4 c rest => exact List.suffix_cons c rest
  | case5 c rest => exact List.suffix_rfl
  | case6 c rest _ _ _ ih => exact ih.trans (List.suffix_cons c rest)

theorem blockCommentRest_suffix (s : List Char) : blockCommentRest s <:+ s := by
  fun_induction blockCommentRest s with
  | case1 => exact List.suffix_rfl
  | case2 c hc after => exact (List.suffix_cons '/' after).trans (List.suffix_cons c ('/' :: after))
  | case3 c rest _ _ ih => exact ih.trans (List.suffix_cons c rest)
  | case4 c rest _ ih => exact ih.trans (List.suffix_cons c rest)

theorem literalRest?_suffix {s r : List Char} (h : literalRest? s = some r) : r <:+ s := by
  unfold literalRest? at h
  split at h
  · cases h
  · rename_i c rest
    split at h
    · obtain rfl := Option.some.inj h
      exact (quoteRest_suffix c rest).trans (List.suffix_cons c rest)
    · split at h
      · split at h
        · rename_i after
          obtain rfl := Option.some.inj h
          exact (List.dropWhile_suffix _).trans ⟨[c, '/'], rfl⟩
        · rename_i after
          obtain rfl := Option.some.inj h
          exact (blockCommentRest_suffix after).trans ⟨[c, '*'], rfl⟩
        · cases h
      · cases h

theorem scanGroup_closer {room : Nat} {stack s r : List Char}
    (h : scanGroup room stack s = .closed r) : ∃ c : Char, isCloser c = true ∧ c :: r <:+ s := by
  fun_induction scanGroup room stack s with
  | case1 => cases h
  | case2 => cases h
  | case3 stack room c rest after hl _ ih =>
    obtain ⟨d, hd, hsuf⟩ := ih h
    exact ⟨d, hd, hsuf.trans (literalRest?_suffix hl)⟩
  | case4 stack room c rest _ closer _ ih =>
    obtain ⟨d, hd, hsuf⟩ := ih h
    exact ⟨d, hd, hsuf.trans (List.suffix_cons c rest)⟩
  | case5 => cases h
  | case6 => cases h
  | case7 room c rest _ _ hc top below =>
    obtain rfl := GroupScan.closed.inj h
    exact ⟨c, hc, List.suffix_rfl⟩
  | case8 room c rest _ _ _ top below _ _ ih =>
    obtain ⟨d, hd, hsuf⟩ := ih h
    exact ⟨d, hd, hsuf.trans (List.suffix_cons c rest)⟩
  | case9 stack room c rest _ _ _ ih =>
    obtain ⟨d, hd, hsuf⟩ := ih h
    exact ⟨d, hd, hsuf.trans (List.suffix_cons c rest)⟩

/-- An end of a cut text that is no shorter than the part after the cut holds all of that part. -/
theorem exists_append_of_suffix {r s u : List Char} (h : r <:+ s ++ u) (hl : u.length ≤ r.length) :
    ∃ x, r = x ++ u := by
  obtain ⟨x, hx⟩ := List.suffix_of_suffix_length_le (List.suffix_append s u) h hl
  exact ⟨x, hx.symm⟩

/-! ### One step of a literal -/

theorem quoteRest_cons (mark c : Char) (rest : List Char) :
    quoteRest mark (c :: rest) =
      if c == '\\' then quoteRest mark rest.tail
      else if c == mark then rest
      else if c == '\n' && mark != '\x60' then c :: rest
      else quoteRest mark rest := by
  rw [quoteRest.eq_def]
  cases rest <;> rfl

theorem blockCommentRest_cons (c : Char) (rest : List Char) :
    blockCommentRest (c :: rest) =
      if c == '*' && rest.head? == some '/' then rest.tail else blockCommentRest rest := by
  rw [blockCommentRest.eq_def]
  cases rest with
  | nil => simp
  | cons d rest =>
    by_cases hd : d = '/'
    · subst hd
      simp
    · simp [hd]

theorem literalRest?_cons (c : Char) (rest : List Char) :
    literalRest? (c :: rest) =
      if isQuote c then some (quoteRest c rest)
      else if c == '/' && rest.head? == some '/' then some (rest.tail.dropWhile (· != '\n'))
      else if c == '/' && rest.head? == some '*' then some (blockCommentRest rest.tail)
      else none := by
  rw [literalRest?.eq_def]
  cases rest with
  | nil => simp
  | cons d rest =>
    by_cases hd : d = '/'
    · subst hd
      simp
    by_cases hd' : d = '*'
    · subst hd'
      simp
    · simp [hd, hd']

/-! ### Literals of a cut text -/

theorem quoteRest_cut (mark : Char) (s u : List Char) :
    quoteRest mark s = (quoteRest mark (s ++ u)).rdrop u.length := by
  fun_induction quoteRest mark s with
  | case1 => rw [List.nil_append, rdrop_eq_nil (length_quoteRest_le mark u)]
  | case2 c hc =>
    rw [List.singleton_append, quoteRest_cons, if_pos hc, rdrop_eq_nil]
    exact (length_quoteRest_le mark u.tail).trans (by simp)
  | case3 c hc d rest ih => rw [List.cons_append, quoteRest_cons, if_pos hc, ih]; rfl
  | case4 c rest hc hm =>
    rw [List.cons_append, quoteRest_cons, if_neg hc, if_pos hm, List.rdrop_append_length]
  | case5 c rest hc hm hn =>
    rw [List.cons_append, quoteRest_cons, if_neg hc, if_neg hm, if_pos hn, ← List.cons_append,
      List.rdrop_append_length]
  | case6 c rest hc hm hn ih =>
    rw [List.cons_append, quoteRest_cons, if_neg hc, if_neg hm, if_neg hn, ih]

theorem blockCommentRest_cut (s u : List Char) :
    blockCommentRest s = (blockCommentRest (s ++ u)).rdrop u.length := by
  induction s with
  | nil => rw [List.nil_append, blockCommentRest, rdrop_eq_nil (length_blockCommentRest_le u)]
  | cons c rest ih =>
    rw [List.cons_append, blockCommentRest_cons, blockCommentRest_cons]
    cases rest with
    | nil =>
      -- the asterisk may end the text, and a slash after the cut would then end the comment
      rw [if_neg (by simp), List.nil_append, blockCommentRest]
      split
      · rw [rdrop_eq_nil (by simp)]
      · exact ih
    | cons d rest =>
      rw [List.cons_append, List.head?_cons, List.tail_cons, List.head?_cons, List.tail_cons]
      split
      · rw [List.rdrop_append_length]
      · exact ih

/-- **A cut shortens a literal to what stands before it.**  Only a slash at the cut may become a
literal by what follows. -/
theorem literalRest?_cut {c : Char} {rest u : List Char}
    (h : c = '/' → rest = [] → u.head? ≠ some '/' ∧ u.head? ≠ some '*') :
    literalRest? (c :: rest) = (literalRest? (c :: (rest ++ u))).map (·.rdrop u.length) := by
  rw [literalRest?_cons, literalRest?_cons]
  by_cases hq : isQuote c
  · rw [if_pos hq, if_pos hq, Option.map_some, ← quoteRest_cut]
  rw [if_neg hq, if_neg hq]
  cases rest with
  | nil =>
    by_cases hs : c = '/'
    · obtain ⟨h₁, h₂⟩ := h hs rfl
      simp [h₁, h₂]
    · simp [hs]
  | cons d rest =>
    rw [List.cons_append, List.head?_cons, List.tail_cons, List.head?_cons, List.tail_cons]
    split
    · rw [Option.map_some, ← dropWhile_cut]
    · split
      · rw [Option.map_some, ← blockCommentRest_cut]
      · rfl

theorem length_lt_of_literalRest?_slash {u r : List Char} (h : literalRest? ('/' :: u) = some r) :
    r.length < u.length := by
  cases u with
  | nil => simp [literalRest?_cons, isQuote] at h
  | cons d u =>
    rw [literalRest?_cons, if_neg (by decide)] at h
    split at h
    · obtain rfl := Option.some.inj h
      exact Nat.lt_succ_of_le (List.dropWhile_suffix _).length_le
    · split at h
      · obtain rfl := Option.some.inj h
        exact Nat.lt_succ_of_le (length_blockCommentRest_le u)
      · cases h

/-- A literal that ends before the cut is a literal of the text before the cut. -/
theorem literalRest?_of_append {s u r : List Char} (h : literalRest? (s ++ u) = some (r ++ u)) :
    literalRest? s = some r := by
  cases s with
  | nil =>
    have := length_lt_of_literalRest? h
    rw [List.nil_append, List.length_append] at this
    omega
  | cons c rest =>
    rw [List.cons_append] at h
    by_cases hc : c = '/' ∧ rest = []
    · obtain ⟨rfl, rfl⟩ := hc
      have := length_lt_of_literalRest?_slash h
      rw [List.nil_append, List.length_append] at this
      omega
    · rw [literalRest?_cut (u := u) (fun h₁ h₂ => absurd ⟨h₁, h₂⟩ hc), h, Option.map_some,
        List.rdrop_append_length]

theorem literalRest?_eq_none_of_append {s u : List Char} (h : literalRest? (s ++ u) = none) :
    literalRest? s = none := by
  cases s with
  | nil => rfl
  | cons c rest =>
    rw [List.cons_append] at h
    by_cases hc : c = '/' ∧ rest = []
    · obtain ⟨rfl, rfl⟩ := hc
      rfl
    · rw [literalRest?_cut (u := u) (fun h₁ h₂ => absurd ⟨h₁, h₂⟩ hc), h, Option.map_none]

/-! ### Groups of a cut text -/

theorem scanGroup_literal {room : Nat} {stack rest after : List Char} {c : Char}
    (h : literalRest? (c :: rest) = some after) :
    scanGroup (room + 1) stack (c :: rest) =
      scanGroup (room + 1 - (rest.length + 1 - after.length)) stack after := by
  rw [scanGroup.eq_def]
  dsimp only
  split
  · rename_i heq
    rw [h] at heq
    rw [Option.some.inj heq]
  · rename_i heq
    rw [h] at heq
    cases heq

theorem scanGroup_char {room : Nat} {stack rest : List Char} {c : Char}
    (h : literalRest? (c :: rest) = none) :
    scanGroup (room + 1) stack (c :: rest) =
      match closerOf? c with
      | some closer => scanGroup room (closer :: stack) rest
      | none =>
          if isCloser c then
            match stack with
            | [] => .mismatched
            | top :: below =>
                if top != c then .mismatched
                else if below.isEmpty then .closed rest
                else scanGroup room below rest
          else scanGroup room stack rest := by
  rw [scanGroup.eq_def]
  dsimp only
  split
  · rename_i heq
    rw [h] at heq
    cases heq
  · rfl

theorem scanGroup_nil (room : Nat) (stack : List Char) : scanGroup room stack [] = .unclosed := by
  cases room <;> rw [scanGroup]

theorem scanGroup_eq_unclosed_of_cut {room : Nat} {stack rest u x : List Char} {c : Char}
    (h : literalRest? (c :: (rest ++ u)) = some x) (hx : x.length ≤ u.length) :
    scanGroup (room + 1) stack (c :: rest) = .unclosed := by
  by_cases hc : c = '/' ∧ rest = []
  · obtain ⟨rfl, rfl⟩ := hc
    rw [scanGroup_char (by rfl)]
    exact scanGroup_nil room stack
  · have hcut := literalRest?_cut (u := u) (fun h₁ h₂ => absurd ⟨h₁, h₂⟩ hc)
    rw [h, Option.map_some, rdrop_eq_nil hx] at hcut
    rw [scanGroup_literal hcut, scanGroup_nil]

/-- **A group ends within a text if and only if it ends there in every longer text**, however far
the window reaches beyond the cut. -/
theorem scanGroup_append_iff (m : Nat) (u r : List Char) : ∀ (s stack : List Char),
    scanGroup (s.length + m) stack (s ++ u) = .closed (r ++ u) ↔
      scanGroup s.length stack s = .closed r := by
  intro s
  induction hn : s.length using Nat.strong_induction_on generalizing s with
  | _ n ih =>
    subst hn
    intro stack
    cases s with
    | nil =>
      refine ⟨fun h => ?_, fun h => ?_⟩
      · have := length_lt_of_scanGroup h
        rw [List.length_append, List.nil_append] at this
        omega
      · rw [scanGroup_nil] at h
        cases h
    | cons c rest =>
      rw [List.length_cons, Nat.add_right_comm, List.cons_append]
      cases hl : literalRest? (c :: (rest ++ u)) with
      | some x =>
        by_cases hx : x.length ≤ u.length
        · rw [scanGroup_eq_unclosed_of_cut hl hx, scanGroup_literal hl]
          refine ⟨fun h => ?_, fun h => by cases h⟩
          have := length_lt_of_scanGroup h
          rw [List.length_append] at this
          omega
        · obtain ⟨y, rfl⟩ := exists_append_of_suffix (s := c :: rest) (literalRest?_suffix hl) (by omega)
          have hy := literalRest?_of_append (s := c :: rest) hl
          have hlt := length_lt_of_literalRest? hy
          rw [List.length_cons] at hlt
          rw [scanGroup_literal hl, scanGroup_literal hy, List.length_append, List.length_append,
            show rest.length + m + 1 - (rest.length + u.length + 1 - (y.length + u.length))
              = y.length + m by omega,
            show rest.length + 1 - (rest.length + 1 - y.length) = y.length by omega]
          exact ih y.length hlt y rfl stack
      | none =>
        have hrest := ih rest.length (Nat.lt_succ_self _) rest rfl
        rw [scanGroup_char hl, scanGroup_char (literalRest?_eq_none_of_append (s := c :: rest) hl)]
        cases closerOf? c with
        | some closer => exact hrest (closer :: stack)
        | none =>
          dsimp only
          split
          · cases stack with
            | nil => simp
            | cons top below =>
              dsimp only
              split
              · simp
              · split
                · simp
                · exact hrest below
          · exact hrest stack

/-- **A group ends within a text if and only if it ends there in every longer text.** -/
theorem groupRest?_append_iff {s u r : List Char} :
    groupRest? (s ++ u) = some (r ++ u) ↔ groupRest? s = some r := by
  have h := scanGroup_append_iff u.length u r s []
  rw [groupRest?, groupRest?, List.length_append]
  split <;> split <;> simp_all

theorem groupRest?_closer {s r : List Char} (h : groupRest? s = some r) :
    ∃ c : Char, isCloser c = true ∧ c :: r <:+ s := by
  rw [groupRest?] at h
  split at h
  · rename_i heq
    exact Option.some.inj h ▸ scanGroup_closer heq
  · cases h

theorem groupRest?_suffix {s r : List Char} (h : groupRest? s = some r) : r <:+ s := by
  obtain ⟨c, -, hsuf⟩ := groupRest?_closer h
  exact (List.suffix_cons c r).trans hsuf

/-! ### Literals by their offsets -/

section Offsets

variable {src : List Char}

/-- **A literal ends after its start and within the text**, and the scan of rests says the same. -/
theorem literalRest?_of_skipLiteral {a b : Nat} (h : skipLiteral src a = .ok (some b)) :
    literalRest? (src.drop a) = some (src.drop b) ∧ a < b ∧ b ≤ src.length := by
  rw [skipLiteral] at h
  split at h
  · obtain ⟨r, hr, rfl⟩ := Option.map_eq_some_iff.mp (Except.ok.inj h)
    have hlt : r.length < src.length - a := List.length_drop ▸ length_lt_of_literalRest? hr
    have hsuffix : r <:+ src := (literalRest?_suffix hr).trans (List.drop_suffix a src)
    have hdrop : r = src.drop (src.length - r.length) := List.suffix_iff_eq_drop.mp hsuffix
    exact ⟨hr.trans (congrArg some hdrop), by omega, by omega⟩
  · cases h

theorem literalRest?_of_skipLiteral_none {a : Nat} (h : skipLiteral src a = .ok none) :
    literalRest? (src.drop a) = none := by
  rw [skipLiteral] at h
  split at h
  · exact Option.map_eq_none_iff.mp (Except.ok.inj h)
  · cases h

/-- A cut that separates a slash from what would make it the start of a comment. -/
def SplitsMark (src : List Char) (k : Nat) : Prop :=
  src[k - 1]? = some '/' ∧ (src[k]? = some '/' ∨ src[k]? = some '*')

instance (src : List Char) (k : Nat) : Decidable (SplitsMark src k) :=
  inferInstanceAs (Decidable (_ ∧ _))

theorem literalRest?_take {pos k : Nat} (hpos : pos < k) (hk : k ≤ src.length)
    (hsplit : ¬SplitsMark src k) :
    literalRest? ((src.take k).drop pos) =
      (literalRest? (src.drop pos)).map (·.rdrop (src.drop k).length) := by
  have hi : pos < src.length := Nat.lt_of_lt_of_le hpos hk
  have hchar : (src.take k)[pos]? = some src[pos] := by
    rw [List.getElem?_take_of_lt hpos, List.getElem?_eq_getElem hi]
  have hbefore : (src.take k).drop pos = src[pos] :: (src.take k).drop (pos + 1) :=
    drop_of_getElem? hchar
  have hwhole : src.drop pos = src[pos] :: ((src.take k).drop (pos + 1) ++ src.drop k) := by
    rw [← List.cons_append, ← hbefore, ← List.drop_append_of_le_length, List.take_append_drop]
    rw [List.length_take]
    omega
  rw [hwhole, hbefore]
  refine literalRest?_cut fun hslash hlast => ?_
  -- a slash with nothing between it and the cut is the last character before the cut
  have hend : pos = k - 1 := by
    have hle := List.drop_eq_nil_iff.mp hlast
    rw [List.length_take] at hle
    omega
  have hmark : src[k - 1]? = some '/' := by
    rw [← hend, List.getElem?_eq_getElem hi, hslash]
  rw [List.head?_drop]
  exact ⟨fun h => hsplit ⟨hmark, .inl h⟩, fun h => hsplit ⟨hmark, .inr h⟩⟩

/-- **Skipping a literal goes forward, stays within the text, and is stable under cuts.**  A literal of the
text before a cut is a literal of the whole text and ends where that one does, or at the cut if this is
earlier; the cut must not separate a slash from what makes it the start of a comment. -/
theorem literal_skipping_is_stable {pos : Nat} (hpos : pos < src.length) :
    ∃ found : Option Nat, skipLiteral src pos = .ok found ∧
      (∀ e ∈ found, pos < e ∧ e ≤ src.length) ∧
      ∀ k : Nat, pos < k → k ≤ src.length → ¬SplitsMark src k →
        skipLiteral (src.take k) pos = .ok (found.map (min · k)) := by
  have hskip : skipLiteral src pos = .ok (literalEnd? src pos) := if_pos hpos
  refine ⟨literalEnd? src pos, hskip, fun e he => ?_, fun k hposk hk hsplit => ?_⟩
  · obtain ⟨-, hlt, hle⟩ := literalRest?_of_skipLiteral (hskip.trans (congrArg Except.ok he))
    exact ⟨hlt, hle⟩
  · have hlength : (src.take k).length = k := List.length_take_of_le hk
    have hafter : (src.drop k).length = src.length - k := List.length_drop
    have htake : skipLiteral (src.take k) pos = .ok (literalEnd? (src.take k) pos) :=
      if_pos (hlength.symm ▸ hposk)
    rw [htake, literalEnd?, literalEnd?, literalRest?_take hposk hk hsplit, Option.map_map, Option.map_map]
    congr 2
    funext r
    show (src.take k).length - (r.rdrop (src.drop k).length).length = min (src.length - r.length) k
    rw [List.rdrop, hlength, hafter, List.length_take]
    omega

/-- A quote with an escaped mark in it, and a comment. -/
def escapedQuote : List Char :=
  ['x', '"', 'a', '\\', '"', 'b', '"', '/', '*', 'c', '*', '/']

/-- A cut between a backslash and the mark that it escapes, and one in the end mark of a comment. -/
theorem literal_skipping_is_stable_escape :
    (1 < escapedQuote.length ∧ 4 ≤ escapedQuote.length ∧ ¬SplitsMark escapedQuote 4) ∧
    skipLiteral escapedQuote 1 = .ok (some 7) ∧
    skipLiteral (escapedQuote.take 4) 1 = .ok (some 4) ∧
    (7 < escapedQuote.length ∧ 11 ≤ escapedQuote.length ∧ ¬SplitsMark escapedQuote 11) ∧
    skipLiteral escapedQuote 7 = .ok (some 12) ∧
    skipLiteral (escapedQuote.take 11) 7 = .ok (some 11) := by
  have hquote : skipLiteral escapedQuote 1 = .ok (some 7) := by decide +kernel
  have hcomment : skipLiteral escapedQuote 7 = .ok (some 12) := by decide +kernel
  obtain ⟨quote, hfound, -, hquoteCut⟩ := @literal_skipping_is_stable escapedQuote 1 (by decide)
  obtain rfl : quote = some 7 := Except.ok.inj (hfound.symm.trans hquote)
  obtain ⟨comment, hfound, -, hcommentCut⟩ := @literal_skipping_is_stable escapedQuote 7 (by decide)
  obtain rfl : comment = some 12 := Except.ok.inj (hfound.symm.trans hcomment)
  exact ⟨by decide, hquote, hquoteCut 4 (by decide) (by decide) (by decide),
    by decide, hcomment, hcommentCut 11 (by decide) (by decide) (by decide)⟩

/-- A cut between the two slashes leaves no comment. -/
example : skipLiteral ['/', '/'] 0 = .ok (some 2) ∧ skipLiteral ['/'] 0 = .ok none := by
  decide +kernel

end Offsets

end Mdx.Script
