import Mdx.Proofs.Script.Statement

/-!
# The layout of a statement run

A run is cut at line breaks, and blanks are taken off the end of each statement, so nothing but blanks
is left between the statements.  `Separated off s sts after` says so by concatenation: the text `s`,
which starts at the offset `off`, is the statements `sts` with blanks before, between and after them,
and then `after`.  Order, bounds and coverage of the statements follow from it by induction, without
another look at how a run is found.
-/

namespace Mdx.Script

/-- Whether a statement takes the character at an offset. -/
def Statement.covers (i : Nat) (st : Statement) : Bool :=
  decide (st.start ≤ i) && decide (i < st.stop)

/-- From the offset `off` on, the text is statements with blanks around them, and a text after the
last one. -/
inductive Separated : Nat → List Char → List Statement → List Char → Prop
  | nil {off : Nat} {gap after : List Char} (hgap : ∀ c ∈ gap, Text.isBlank c = true) :
      Separated off (gap ++ after) [] after
  | cons {off : Nat} {gap text rest after : List Char} {kind : StatementKind} {sts : List Statement}
      (hgap : ∀ c ∈ gap, Text.isBlank c = true) (htext : text ≠ [])
      (h : Separated (off + gap.length + text.length) rest sts after) :
      Separated off (gap ++ (text ++ rest))
        (⟨kind, off + gap.length, off + gap.length + text.length⟩ :: sts) after

namespace Separated

variable {off : Nat} {s after : List Char} {sts : List Statement}

theorem suffix (h : Separated off s sts after) : after <:+ s := by
  induction h with
  | nil hgap => exact List.suffix_append _ _
  | cons hgap htext h ih =>
    exact ih.trans ((List.suffix_append _ _).trans (List.suffix_append _ _))

theorem blank_append {gap : List Char} (hgap : ∀ c ∈ gap, Text.isBlank c = true)
    (h : Separated (off + gap.length) s sts after) : Separated off (gap ++ s) sts after := by
  cases h with
  | @nil _ gap' _ hgap' =>
    rw [← List.append_assoc]
    refine .nil fun c hc => ?_
    rcases List.mem_append.mp hc with hc | hc
    · exact hgap c hc
    · exact hgap' c hc
  | @cons _ gap' text rest _ kind sts hgap' htext h =>
    have hlen : off + gap.length + gap'.length = off + (gap ++ gap').length := by
      rw [List.length_append, Nat.add_assoc]
    rw [hlen] at h ⊢
    rw [← List.append_assoc]
    refine .cons (fun c hc => ?_) htext h
    rcases List.mem_append.mp hc with hc | hc
    · exact hgap c hc
    · exact hgap' c hc

/-- Each statement has a character, and lies between the start of the text and what is after the
run. -/
theorem bounds (h : Separated off s sts after) {st : Statement} (hst : st ∈ sts) :
    off ≤ st.start ∧ st.start < st.stop ∧ st.stop + after.length ≤ off + s.length := by
  induction h with
  | nil hgap => cases hst
  | @cons off gap text rest after kind sts hgap htext h ih =>
    have hpos : 0 < text.length := List.length_pos_iff.mpr htext
    have hle : after.length ≤ rest.length := h.suffix.length_le
    simp only [List.length_append]
    rcases List.mem_cons.mp hst with rfl | hst
    · exact ⟨by simp, by simp [hpos], by dsimp only; omega⟩
    · obtain ⟨h₁, h₂, h₃⟩ := ih hst
      exact ⟨by omega, h₂, by omega⟩

/-- **The statements are disjoint and in order.** -/
theorem pairwise (h : Separated off s sts after) :
    sts.Pairwise fun a b => a.stop ≤ b.start := by
  induction h with
  | nil hgap => exact .nil
  | cons hgap htext h ih => exact .cons (fun st hst => (h.bounds hst).1) ih

theorem countP_covers_eq_zero (h : Separated off s sts after) {i : Nat} (hi : i < off) :
    sts.countP (Statement.covers i) = 0 := by
  rw [List.countP_eq_zero]
  intro st hst
  have := (h.bounds hst).1
  simp only [Statement.covers, Bool.and_eq_true, decide_eq_true_eq]
  omega

/-- **A character of the run that is no blank is in exactly one statement.** -/
theorem countP_covers_eq_one (h : Separated off s sts after) {i : Nat} {c : Char}
    (hi : i + after.length < s.length) (hc : s[i]? = some c) (hblank : Text.isBlank c = false) :
    sts.countP (Statement.covers (off + i)) = 1 := by
  induction h generalizing i with
  | @nil off gap after hgap =>
    have hlt : i < gap.length := by
      rw [List.length_append] at hi
      omega
    rw [List.getElem?_append_left hlt] at hc
    rw [hgap c (List.mem_of_getElem? hc)] at hblank
    cases hblank
  | @cons off gap text rest after kind sts hgap htext h ih =>
    have hgi : gap.length ≤ i := by
      by_contra hlt
      rw [List.getElem?_append_left (by omega)] at hc
      rw [hgap c (List.mem_of_getElem? hc)] at hblank
      cases hblank
    rw [List.getElem?_append_right hgi] at hc
    by_cases hti : i - gap.length < text.length
    · have hhead : Statement.covers (off + i)
          ⟨kind, off + gap.length, off + gap.length + text.length⟩ = true := by
        simp only [Statement.covers, Bool.and_eq_true, decide_eq_true_eq]
        omega
      rw [List.countP_cons_of_pos hhead, h.countP_covers_eq_zero (by omega)]
    · have hhead : ¬Statement.covers (off + i)
          ⟨kind, off + gap.length, off + gap.length + text.length⟩ = true := by
        simp only [Statement.covers, Bool.and_eq_true, decide_eq_true_eq]
        omega
      rw [List.getElem?_append_right (by omega)] at hc
      rw [List.length_append, List.length_append] at hi
      have hrest := ih (i := i - gap.length - text.length) (by omega) hc
      rw [List.countP_cons_of_neg hhead]
      have : off + gap.length + text.length + (i - gap.length - text.length) = off + i := by omega
      rwa [this] at hrest

end Separated

/-! ### Blanks at the end of a text -/

theorem exists_trimEnd_append (s : List Char) :
    ∃ gap : List Char, s = Text.trimEnd s ++ gap ∧ ∀ c ∈ gap, Text.isBlank c = true := by
  refine ⟨(s.reverse.takeWhile Text.isBlank).reverse, ?_, ?_⟩
  · rw [Text.trimEnd, Text.dropEndWhile, ← List.reverse_append, List.takeWhile_append_dropWhile,
      List.reverse_reverse]
  · intro c hc
    exact List.mem_takeWhile_imp (List.mem_reverse.mp hc)

theorem getLast?_trimEnd (s : List Char) : (Text.trimEnd s).getLast?.any Text.isBlank = false := by
  rw [Text.trimEnd, Text.dropEndWhile, List.getLast?_reverse]
  cases h : s.reverse.dropWhile Text.isBlank with
  | nil => rfl
  | cons c rest =>
    have hnot := List.head?_dropWhile_not Text.isBlank s.reverse
    rw [h] at hnot
    exact hnot

theorem prefix_trimEnd {x s : List Char} (hx : x <+: s) (hlast : x.getLast?.any Text.isBlank = false) :
    x <+: Text.trimEnd s := by
  obtain ⟨gap, hs, hgap⟩ := exists_trimEnd_append s
  rcases List.prefix_or_prefix_of_prefix hx (hs ▸ List.prefix_append _ gap) with h | ⟨y, rfl⟩
  · exact h
  -- otherwise the end of `x` is among the blanks that are left off
  cases hy : y.getLast? with
  | none =>
    simp [List.getLast?_eq_none_iff.mp hy]
  | some c =>
    rw [List.getLast?_append, hy] at hlast
    obtain ⟨z, hz⟩ := hx
    have hgap' := hz.trans hs
    rw [List.append_assoc] at hgap'
    have hc : c ∈ gap := by
      rw [← List.append_cancel_left hgap']
      exact List.mem_append_left z (List.mem_of_getLast? hy)
    rw [Option.some_or, Option.any_some, hgap c hc] at hlast
    cases hlast

theorem trimEnd_eq_self {s : List Char} (hlast : s.getLast?.any Text.isBlank = false) :
    Text.trimEnd s = s := by
  obtain ⟨gap, hs, -⟩ := exists_trimEnd_append s
  have hprefix : s <+: Text.trimEnd s := prefix_trimEnd List.prefix_rfl hlast
  have htrim : Text.trimEnd s <+: s := ⟨gap, hs.symm⟩
  exact htrim.eq_of_length_le hprefix.length_le

/-! ### The run -/

/-- The statement whose keyword starts the text `body`, up to the text `rest`. -/
def statementUpTo (total : Nat) (kind : StatementKind) (body rest : List Char) : Statement :=
  ⟨kind, total - body.length,
    total - body.length + (Text.trimEnd (body.take (body.length - rest.length))).length⟩

section RunSteps

variable {total : Nat} {s body : List Char} {kind : StatementKind}

theorem statementRun_none (hhere : statementHere? s = none) :
    statementRun total s = .error ⟨.statementExpected, s, 0⟩ := by
  rw [statementRun.eq_def]
  split
  · rfl
  next heq =>
    rw [hhere] at heq
    cases heq

variable (hhere : statementHere? s = some (kind, body))

include hhere

theorem statementRun_error {e : StructureCause × List Char}
    (hrest : statementRest kind [] body = .error e) :
    statementRun total s = .error ⟨e.1, e.2, 1⟩ := by
  rw [statementRun.eq_def]
  split
  next heq =>
    rw [hhere] at heq
    cases heq
  next heq =>
    rw [hhere] at heq
    cases heq
    split
    next heq =>
      rw [hrest] at heq
      cases heq
      rfl
    next heq =>
      rw [hrest] at heq
      cases heq

/-- A run of one statement, which ends with the text or before a line without one. -/
theorem statementRun_last {rest : List Char} (hrest : statementRest kind [] body = .ok rest)
    (hnext : ∀ c next, rest = c :: next → statementHere? next = none) :
    statementRun total s = .ok ([statementUpTo total kind body rest], rest) := by
  rw [statementRun.eq_def]
  split
  next heq =>
    rw [hhere] at heq
    cases heq
  next heq =>
    rw [hhere] at heq
    cases heq
    split
    next heq =>
      rw [hrest] at heq
      cases heq
    next rest' heq =>
      obtain rfl : rest = rest' := Except.ok.inj (hrest.symm.trans heq)
      split
      · rfl
      next c next _ =>
        rw [hnext c next rfl]
        rfl

theorem statementRun_more {c : Char} {next : List Char}
    (hrest : statementRest kind [] body = .ok (c :: next))
    (hnext : (statementHere? next).isSome = true) :
    statementRun total s = (statementRun total next).map fun r =>
      (statementUpTo total kind body (c :: next) :: r.1, r.2) := by
  rw [statementRun.eq_def]
  split
  next heq =>
    rw [hhere] at heq
    cases heq
  next heq =>
    rw [hhere] at heq
    cases heq
    split
    next heq =>
      rw [hrest] at heq
      cases heq
    next rest' heq =>
      obtain rfl : c :: next = rest' := Except.ok.inj (hrest.symm.trans heq)
      dsimp only
      rw [if_pos hnext]
      cases statementRun total next <;> rfl

end RunSteps

/-- What a run is: one statement, and then another run on the next line, or none if no statement
starts there. -/
theorem statementRun_cases {total : Nat} {s after : List Char} {sts : List Statement}
    (h : statementRun total s = .ok (sts, after)) :
    ∃ (kind : StatementKind) (body rest : List Char), statementHere? s = some (kind, body) ∧
      statementRest kind [] body = .ok rest ∧
      (sts = [statementUpTo total kind body rest] ∧ after = rest ∧
          (∀ (c : Char) (next : List Char), rest = c :: next → statementHere? next = none) ∨
        ∃ (c : Char) (next : List Char) (more : List Statement), rest = c :: next ∧
          statementRun total next = .ok (more, after) ∧
          sts = statementUpTo total kind body rest :: more) := by
  rw [statementRun.eq_def] at h
  split at h
  · cases h
  next kind body hhere =>
    split at h
    · cases h
    next rest hrest =>
      refine ⟨kind, body, rest, hhere, hrest, ?_⟩
      split at h
      · cases h
        exact .inl ⟨rfl, rfl, by simp⟩
      · split at h
        · split at h
          · cases h
          next more after' hmore =>
            cases h
            exact .inr ⟨_, _, more, rfl, hmore, rfl⟩
        next hnext =>
          cases h
          refine .inl ⟨rfl, rfl, ?_⟩
          rintro _ _ ⟨⟩
          simpa using hnext

/-- A statement is a text that starts with its keyword, and blanks up to where its scan ends. -/
theorem exists_text {body rest : List Char} {kind : StatementKind} (total : Nat)
    (hkey : keywordHere? body = some kind) (hrest : statementRest kind [] body = .ok rest) :
    ∃ text trail : List Char, body = text ++ (trail ++ rest) ∧ kind.keyword.toList <+: text ∧
      text.getLast?.any Text.isBlank = false ∧ (∀ c ∈ trail, Text.isBlank c = true) ∧
      statementUpTo total kind body rest =
        ⟨kind, total - body.length, total - body.length + text.length⟩ := by
  obtain ⟨tail, rfl, -⟩ := keywordHere?_eq_some_iff.mp hkey
  rw [statementRest_keyword] at hrest
  obtain ⟨front, rfl⟩ := statementRest_suffix hrest
  have htake : (kind.keyword.toList ++ (front ++ rest)).take
      ((kind.keyword.toList ++ (front ++ rest)).length - rest.length) =
        kind.keyword.toList ++ front := by
    rw [← List.append_assoc, List.length_append, Nat.add_sub_cancel, List.take_left]
  obtain ⟨trail, htrail, hblank⟩ := exists_trimEnd_append (kind.keyword.toList ++ front)
  refine ⟨Text.trimEnd (kind.keyword.toList ++ front), trail, ?_, ?_, getLast?_trimEnd _, hblank, ?_⟩
  · rw [← List.append_assoc, ← List.append_assoc, ← htrail]
  · exact prefix_trimEnd (List.prefix_append _ _) (by cases kind <;> decide +kernel)
  · rw [statementUpTo, htake]

theorem isBlank_of_isIndent {c : Char} (h : Text.isIndent c = true) : Text.isBlank c = true := by
  rw [Text.isIndent, Bool.or_eq_true, beq_iff_eq, beq_iff_eq] at h
  rcases h with rfl | rfl <;> rfl

theorem keyword_ne_nil (kind : StatementKind) : kind.keyword.toList ≠ [] := by
  cases kind <;> decide +kernel

/-- **A run is its statements and blanks between them**, up to a line break or the end of the
text. -/
theorem separated_of_statementRun {total : Nat} : ∀ {s after : List Char} {sts : List Statement},
    s.length ≤ total → statementRun total s = .ok (sts, after) →
      Separated (total - s.length) s sts after ∧ sts ≠ [] ∧
        (after = [] ∨ ∃ next, after = '\n' :: next) := by
  intro s
  induction hn : s.length using Nat.strong_induction_on generalizing s with
  | _ n ih =>
    subst hn
    intro after sts hle h
    obtain ⟨kind, body, rest, hhere, hrest, hcases⟩ := statementRun_cases h
    obtain ⟨gap, hs, hindent, hkey⟩ := exists_indent hhere
    obtain ⟨text, trail, hbody, hstart, -, htrail, hst⟩ := exists_text total hkey hrest
    have hgap : ∀ c ∈ gap, Text.isBlank c = true := fun c hc => isBlank_of_isIndent (hindent c hc)
    have htext : text ≠ [] := by
      rintro rfl
      exact keyword_ne_nil kind (List.prefix_nil.mp hstart)
    have hend := statementRest_eq_nil_or_cons hrest
    have hlen : s.length = gap.length + (text.length + (trail.length + rest.length)) := by
      rw [hs, hbody]
      simp only [List.length_append]
    have hoffset : total - body.length = total - s.length + gap.length := by
      rw [hs, List.length_append] at hle ⊢
      omega
    rw [hoffset] at hst
    rw [hbody] at hs
    rcases hcases with ⟨rfl, rfl, -⟩ | ⟨c, next, more, rfl, hmore, rfl⟩
    · refine ⟨?_, List.cons_ne_nil _ _, hend⟩
      rw [hst]
      nth_rewrite 2 [hs]
      exact .cons hgap htext (.nil htrail)
    · rw [List.length_cons] at hlen
      obtain ⟨hsep, -, hafter⟩ := ih next.length (by omega) rfl (by omega) hmore
      refine ⟨?_, List.cons_ne_nil _ _, hafter⟩
      -- the line break goes to the blanks before the next statement
      obtain rfl : c = '\n' := by
        rcases hend with hnil | ⟨next', hnext⟩
        · cases hnil
        · exact (List.cons.inj hnext).1
      have hblank : ∀ d ∈ trail ++ ['\n'], Text.isBlank d = true := by
        intro d hd
        rcases List.mem_append.mp hd with hd | hd
        · exact htrail d hd
        · rw [List.mem_singleton.mp hd]
          rfl
      have hoff : total - next.length =
          total - s.length + gap.length + text.length + (trail ++ ['\n']).length := by
        rw [List.length_append, List.length_singleton]
        omega
      rw [hoff] at hsep
      have hlines := hsep.blank_append hblank
      rw [List.append_assoc, List.singleton_append] at hlines
      rw [hst]
      nth_rewrite 2 [hs]
      exact .cons hgap htext hlines

/-- The statements are a run of the text between two offsets: they lie there in order, and leave
nothing but blanks out. -/
structure IsRun (src : List Char) (pos stop : Nat) (sts : List Statement) : Prop where
  ne_nil : sts ≠ []
  stop_le : stop ≤ src.length
  inside : ∀ st ∈ sts, pos ≤ st.start ∧ st.start < st.stop ∧ st.stop ≤ stop
  ordered : sts.Pairwise fun a b => a.stop ≤ b.start
  once : ∀ (i : Nat) (c : Char), pos ≤ i → i < stop → src[i]? = some c → Text.isBlank c = false →
    sts.countP (Statement.covers i) = 1

/-- **Splitting at an offset of the text gives a run.** -/
theorem isRun_of_splitStatements {src : List Char} {pos stop : Nat} {index : Option LineIndex}
    {sts : List Statement} (hpos : pos ≤ src.length)
    (h : splitStatements src pos index = .ok (sts, stop)) : IsRun src pos stop sts := by
  unfold splitStatements at h
  split at h
  next statements after hrun =>
    cases h
    have hlen : (src.drop pos).length = src.length - pos := List.length_drop
    have hoff : src.length - (src.drop pos).length = pos := by omega
    obtain ⟨hsep, hne, -⟩ := separated_of_statementRun (by omega) hrun
    rw [hoff] at hsep
    refine ⟨hne, by omega, fun st hst => ?_, hsep.pairwise, fun i c hle hlt hc hblank => ?_⟩
    · have := hsep.bounds hst
      omega
    · have hchar : (src.drop pos)[i - pos]? = some c := by
        rw [List.getElem?_drop, Nat.add_sub_cancel' hle, hc]
      have honce := hsep.countP_covers_eq_one (by omega) hchar hblank
      rwa [Nat.add_sub_cancel' hle] at honce
  · cases h

end Mdx.Script
