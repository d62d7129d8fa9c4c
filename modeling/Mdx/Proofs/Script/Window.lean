import Mdx.Proofs.Script.Cut

/-!
# Groups within a window

The scan for a group may be held to the characters before a limit.  The limit bounds only where a step
starts, and a literal that begins before it is read on in the whole text.  This file says that the limit
might as well be the end of the text: a literal that is read beyond the limit leaves no room for a
closing bracket, and one that the end of the text cuts short does so too.

A scan that ends has read no more than its window (`length_le_of_scanGroup`).  So a group found within a
limit ends before it, what is after the group is the end of a piece of the text and all that follows the
piece, and for such ends the scans of the window, of the piece and of the whole text agree
(`scanGroup_slice_iff`).
-/

namespace Mdx.Script

/-- **A scan reads no more than its window.** -/
theorem length_le_of_scanGroup {room : Nat} {stack s r : List Char}
    (h : scanGroup room stack s = .closed r) : s.length ≤ r.length + room := by
  fun_induction scanGroup room stack s with
  | case1 => cases h
  | case2 => cases h
  | case3 stack room c rest after hl _ ih =>
    -- a literal that leaves the window leaves no room, but a group takes at least one character
    have hroom := ih h
    have hgroup := length_lt_of_scanGroup h
    rw [List.length_cons]
    omega
  | case4 stack room c rest _ closer _ ih => exact Nat.succ_le_succ (ih h)
  | case5 => cases h
  | case6 => cases h
  | case7 room c rest =>
    obtain rfl := GroupScan.closed.inj h
    rw [List.length_cons]
    omega
  | case8 room c rest _ _ _ top below _ _ ih => exact Nat.succ_le_succ (ih h)
  | case9 stack room c rest _ _ _ ih => exact Nat.succ_le_succ (ih h)

section Offsets

variable {src : List Char} {pos limit e : Nat}

theorem groupEnd?_eq_ok_some_iff :
    groupEnd? src pos limit = .ok (some e) ↔
      e ≤ src.length ∧ scanGroup (limit - pos) [] (src.drop pos) = .closed (src.drop e) := by
  rw [groupEnd?]
  cases hscan : scanGroup (limit - pos) [] (src.drop pos) with
  | closed r =>
    obtain ⟨c, -, hsuffix⟩ := scanGroup_closer hscan
    have hr : r <:+ src := ((List.suffix_cons c r).trans hsuffix).trans (List.drop_suffix pos src)
    have hrest : r = src.drop (src.length - r.length) := List.suffix_iff_eq_drop.mp hr
    constructor
    · intro h
      obtain rfl := Option.some.inj (Except.ok.inj h)
      exact ⟨Nat.sub_le _ _, congrArg GroupScan.closed hrest⟩
    · rintro ⟨he, h⟩
      obtain rfl := GroupScan.closed.inj h
      dsimp only
      rw [List.length_drop, Nat.sub_sub_self he]
  | mismatched => simp
  | unclosed =>
    dsimp only
    split <;> simp

/-- A group that is found within a limit starts at or after the offset and ends before the limit. -/
theorem bounds_of_groupEnd? (h : groupEnd? src pos limit = .ok (some e)) :
    pos < e ∧ e ≤ limit ∧ e ≤ src.length := by
  obtain ⟨he, hscan⟩ := groupEnd?_eq_ok_some_iff.mp h
  have hlt := length_lt_of_scanGroup hscan
  have hle := length_le_of_scanGroup hscan
  rw [List.length_drop, List.length_drop] at hlt hle
  omega

theorem exists_groupEnd? (hlimit : limit ≤ src.length) :
    ∃ found : Option Nat, groupEnd? src pos limit = .ok found := by
  rw [groupEnd?]
  split
  · exact ⟨_, rfl⟩
  · exact ⟨_, rfl⟩
  · refine ⟨none, if_neg ?_⟩
    simp only [Bool.and_eq_true, decide_eq_true_eq]
    omega

/-- **The window, the piece and the text beyond the window have the same groups** that end before the
limit; `more` is how far the scan may go beyond it. -/
theorem scanGroup_slice_iff (hpos : pos ≤ limit) (he : e ≤ limit) (hlimit : limit ≤ src.length)
    (more : Nat) :
    scanGroup (limit - pos + more) [] (src.drop pos) = .closed (src.drop e) ↔
      scanGroup (limit - pos) [] (slice src pos limit) = .closed (slice src e limit) := by
  have hlength : (slice src pos limit).length = limit - pos := by
    rw [slice, List.length_take, List.length_drop]
    omega
  have hiff := scanGroup_append_iff more (src.drop limit) (slice src e limit) (slice src pos limit) []
  rwa [hlength, ← drop_eq_slice_append hpos, ← drop_eq_slice_append he] at hiff

theorem groupEnd?_take_iff (hlimit : limit ≤ src.length) :
    groupEnd? (src.take limit) pos (src.take limit).length = .ok (some e) ↔
      groupEnd? src pos limit = .ok (some e) := by
  have hlength : (src.take limit).length = limit := List.length_take_of_le hlimit
  have hcut (hpos : pos ≤ limit) (he : e ≤ limit) :
      scanGroup (limit - pos) [] ((src.take limit).drop pos) = .closed ((src.take limit).drop e) ↔
        scanGroup (limit - pos) [] (src.drop pos) = .closed (src.drop e) := by
    rw [List.drop_take, List.drop_take]
    exact (scanGroup_slice_iff hpos he hlimit 0).symm
  rw [hlength]
  constructor <;> intro h <;> obtain ⟨hpos, he, -⟩ := bounds_of_groupEnd? h
  · obtain ⟨-, hscan⟩ := groupEnd?_eq_ok_some_iff.mp h
    exact groupEnd?_eq_ok_some_iff.mpr ⟨he.trans hlimit, (hcut (by omega) he).mp hscan⟩
  · obtain ⟨-, hscan⟩ := groupEnd?_eq_ok_some_iff.mp h
    exact groupEnd?_eq_ok_some_iff.mpr ⟨hlength.symm ▸ he, (hcut (by omega) he).mpr hscan⟩

theorem groupEnd?_whole_iff (hlimit : limit ≤ src.length) :
    groupEnd? src pos limit = .ok (some e) ↔
      groupEnd? src pos src.length = .ok (some e) ∧ e ≤ limit := by
  -- the scan of the whole text has the rest of the text as room beyond the limit
  have hmore (hpos : pos ≤ limit) (he : e ≤ limit) :
      scanGroup (limit - pos) [] (src.drop pos) = .closed (src.drop e) ↔
        scanGroup (src.length - pos) [] (src.drop pos) = .closed (src.drop e) := by
    have hroom : src.length - pos = limit - pos + (src.length - limit) := by omega
    rw [hroom]
    exact (scanGroup_slice_iff hpos he hlimit 0).trans (scanGroup_slice_iff hpos he hlimit _).symm
  constructor
  · intro h
    obtain ⟨hpos, he, hlength⟩ := bounds_of_groupEnd? h
    obtain ⟨-, hscan⟩ := groupEnd?_eq_ok_some_iff.mp h
    exact ⟨groupEnd?_eq_ok_some_iff.mpr ⟨hlength, (hmore (by omega) he).mp hscan⟩, he⟩
  · rintro ⟨h, he⟩
    obtain ⟨hpos, -, hlength⟩ := bounds_of_groupEnd? h
    obtain ⟨-, hscan⟩ := groupEnd?_eq_ok_some_iff.mp h
    exact groupEnd?_eq_ok_some_iff.mpr ⟨hlength, (hmore (by omega) he).mpr hscan⟩

/-- **A limit is the same as the end of the text.**  The scan for a group that is held to the characters
before a limit finds what the scan of these characters alone finds, and it finds an end if and only if the
scan of the whole text does and the end is not beyond the limit. -/
theorem window_is_truncation (hlimit : limit ≤ src.length) :
    ∃ found : Option Nat, groupEnd? src pos limit = .ok found ∧
      groupEnd? (src.take limit) pos (src.take limit).length = .ok found ∧
      ∀ e : Nat, found = some e ↔ groupEnd? src pos src.length = .ok (some e) ∧ e ≤ limit := by
  obtain ⟨found, hfound⟩ := @exists_groupEnd? src pos limit hlimit
  obtain ⟨cut, hcut⟩ := @exists_groupEnd? (src.take limit) pos _ (Nat.le_refl _)
  have hsame : cut = found := by
    refine Option.ext fun e => ?_
    have htake := @groupEnd?_take_iff src pos limit e hlimit
    rwa [hcut, hfound, Except.ok.injEq, Except.ok.injEq] at htake
  refine ⟨found, hfound, hsame ▸ hcut, fun e => ?_⟩
  have hwhole := @groupEnd?_whole_iff src pos limit e hlimit
  rwa [hfound, Except.ok.injEq] at hwhole

end Offsets

/-- A group with a quoted bracket and a comment in it. -/
def quotedBracket : List Char :=
  ['\x7b', '\x27', '\x7d', '\x27', '/', '*', '\x7d', '*', '/', '\x7d', ';']

/-- Limits within the quote, between the two characters that begin the comment, before the closing bracket
and after it. -/
theorem window_is_truncation_quote :
    (∀ limit ∈ [3, 5, 9], limit ≤ quotedBracket.length ∧ groupEnd? quotedBracket 0 limit = .ok none ∧
      groupEnd? (quotedBracket.take limit) 0 limit = .ok none) ∧
    10 ≤ quotedBracket.length ∧ groupEnd? quotedBracket 0 10 = .ok (some 10) ∧
      groupEnd? (quotedBracket.take 10) 0 10 = .ok (some 10) := by
  have hwhole : groupEnd? quotedBracket 0 quotedBracket.length = .ok (some 10) := by decide +kernel
  have hlength : ∀ limit ∈ [3, 5, 9, 10], limit ≤ quotedBracket.length := by decide
  constructor
  · intro limit hmem
    have hle : limit ≤ quotedBracket.length := hlength limit (List.mem_append_left [10] hmem)
    obtain ⟨found, hwindow, hcut, hiff⟩ := @window_is_truncation quotedBracket 0 limit hle
    obtain rfl : found = none := by
      refine Option.eq_none_iff_forall_ne_some.mpr fun e he => ?_
      obtain ⟨hend, helimit⟩ := (hiff e).mp he
      obtain rfl : 10 = e := Option.some.inj (Except.ok.inj (hwhole.symm.trans hend))
      have hearly : ∀ k ∈ [3, 5, 9], k < 10 := by decide
      exact absurd (hearly limit hmem) (Nat.not_lt.mpr helimit)
    rw [List.length_take_of_le hle] at hcut
    exact ⟨hle, hwindow, hcut⟩
  · have hle : 10 ≤ quotedBracket.length := by decide
    obtain ⟨found, hwindow, hcut, hiff⟩ := @window_is_truncation quotedBracket 0 10 hle
    obtain rfl : found = some 10 := (hiff 10).mpr ⟨hwhole, Nat.le_refl 10⟩
    rw [List.length_take_of_le hle] at hcut
    exact ⟨hle, hwindow, hcut⟩

end Mdx.Script
