import Mdx.Proofs.Script.Matching

/-!
# Statements are scanned alike on their own

The blanks at the end of a statement are left off, and its text is used without what follows it.  Blanks
may be the end of a quote or a comment that goes on to the line break or to the end of the text, so that
the cut goes through a literal; but it goes through no group, since a group ends with a bracket.
`statementRest_cut` says that the scan of the text before the cut goes through all of it.  So the text of
a statement, split on its own, is that one statement (`statement_rescans`).
-/

namespace Mdx.Script

variable {kind : StatementKind} {s x r : List Char}

/-- Blanks, and what follows a statement, do not make a comment of a slash. -/
theorem head?_ne_of_blanks (hx : ∀ c ∈ x, Text.isBlank c = true)
    (hr : r = [] ∨ ∃ next : List Char, r = '\n' :: next) :
    (x ++ r).head? ≠ some '/' ∧ (x ++ r).head? ≠ some '*' := by
  cases x with
  | nil => rcases hr with rfl | ⟨next, rfl⟩ <;> simp
  | cons c x =>
    have hc := hx c List.mem_cons_self
    constructor
    · rintro ⟨⟩
      cases hc
    · rintro ⟨⟩
      cases hc

theorem length_le_of_groupRest? {u : List Char} (hx : ∀ c ∈ x, Text.isBlank c = true)
    (hgroup : groupRest? (s ++ (x ++ r)) = some u) (hr : r <:+ u) : (x ++ r).length ≤ u.length := by
  obtain ⟨d, hd, hsuffix⟩ := groupRest?_closer hgroup
  obtain ⟨y, rfl⟩ := hr
  by_contra hlt
  -- otherwise the bracket that closes the group is among the blanks
  have hlen : (d :: (y ++ r)).length ≤ (x ++ r).length := Nat.lt_of_not_le hlt
  obtain ⟨w, hw⟩ := List.suffix_of_suffix_length_le hsuffix (List.suffix_append s (x ++ r)) hlen
  rw [← List.cons_append, ← List.append_assoc] at hw
  have hmem : d ∈ x := by
    rw [← List.append_cancel_right hw]
    exact List.mem_append_right w List.mem_cons_self
  obtain ⟨-, -, hclose⟩ := not_mem_marks (plain_of_isBlank hx d hmem)
  rw [hd] at hclose
  cases hclose

/-- **The scan of a statement without the blanks at its end goes through all of it.** -/
theorem statementRest_cut (hx : ∀ c ∈ x, Text.isBlank c = true)
    (h : statementRest kind [] (s ++ (x ++ r)) = .ok r) : statementRest kind [] s = .ok [] := by
  have hr := statementRest_eq_nil_or_cons h
  induction hn : s.length using Nat.strong_induction_on generalizing s with
  | _ n ih =>
    subst hn
    cases s with
    | nil => rw [statementRest]
    | cons c s =>
      rw [List.cons_append] at h
      cases hl : literalRest? (c :: (s ++ (x ++ r))) with
      | some u =>
        rw [statementRest_literal hl] at h
        by_cases hlen : (x ++ r).length ≤ u.length
        · obtain ⟨y, rfl⟩ := exists_append_of_suffix (s := c :: s) (literalRest?_suffix hl) hlen
          have hy := literalRest?_of_append (s := c :: s) hl
          rw [statementRest_literal hy]
          exact ih y.length (length_lt_of_literalRest? hy) h rfl
        · -- the cut goes through the literal, which then takes the rest of the text
          have hcut : literalRest? (c :: s) =
              (literalRest? (c :: (s ++ (x ++ r)))).map (·.rdrop (x ++ r).length) :=
            literalRest?_cut fun _ _ => head?_ne_of_blanks hx hr
          rw [hl, Option.map_some, rdrop_eq_nil (Nat.le_of_not_le hlen)] at hcut
          rw [statementRest_literal hcut, statementRest]
      | none =>
        have hnone := literalRest?_eq_none_of_append (s := c :: s) hl
        cases hopen : closerOf? c with
        | some closer =>
          obtain ⟨u, hgroup, hu⟩ := (statementRest_group_iff hopen).mp h
          have hlen := length_le_of_groupRest? (s := c :: s) hx hgroup (statementRest_suffix hu)
          obtain ⟨y, rfl⟩ := exists_append_of_suffix (s := c :: s) (groupRest?_suffix hgroup) hlen
          have hy : groupRest? (c :: s) = some y := groupRest?_append_iff.mp hgroup
          exact (statementRest_group_iff hopen).mpr
            ⟨y, hy, ih y.length (length_lt_of_groupRest? hy) hu rfl⟩
        | none =>
          cases hclose : isCloser c with
          | true =>
            rw [statementRest_stray hl hopen hclose] at h
            cases h
          | false =>
            rw [statementRest_plain hl hopen hclose] at h
            rw [statementRest_plain hnone hopen hclose]
            split at h
            · have hlen := congrArg List.length (Except.ok.inj h)
              simp only [List.length_cons, List.length_append] at hlen
              omega
            next hgo =>
              rw [if_neg hgo]
              exact ih s.length (Nat.lt_succ_self _) h rfl

/-! ### The text of a statement -/

theorem isKeywordEnd_of_append {u : List Char} (h : isKeywordEnd (s ++ u) = true) :
    isKeywordEnd s = true := by
  cases s with
  | nil => rfl
  | cons c s => exact h

theorem keywordHere?_of_append {u : List Char} (h : keywordHere? (s ++ u) = some kind)
    (hstarts : kind.keyword.toList <+: s) : keywordHere? s = some kind := by
  obtain ⟨rest, heq, hend⟩ := keywordHere?_eq_some_iff.mp h
  obtain ⟨tail, rfl⟩ := hstarts
  rw [List.append_assoc] at heq
  obtain rfl := List.append_cancel_left heq
  exact keywordHere?_eq_some_iff.mpr ⟨tail, rfl, isKeywordEnd_of_append hend⟩

theorem splitStatements_whole (hkey : keywordHere? s = some kind)
    (hrest : statementRest kind [] s = .ok []) (hlast : s.getLast?.any Text.isBlank = false)
    (index : Option LineIndex) :
    splitStatements s 0 index = .ok ([⟨kind, 0, s.length⟩], s.length) := by
  have hupTo : statementUpTo s.length kind s [] = ⟨kind, 0, s.length⟩ := by
    rw [statementUpTo, List.length_nil, Nat.sub_zero, List.take_length, trimEnd_eq_self hlast,
      Nat.sub_self, Nat.zero_add]
  rw [splitStatements, List.drop_zero,
    statementRun_last (statementHere?_of_keywordHere? hkey) hrest (by simp), hupTo]
  rfl

/-- **The text of a statement is that statement.**  Take any statement of any run, and the text that it
covers: split on its own it is one statement of the same kind, which covers all of it, and the run ends
with it. -/
theorem statement_rescans {src : List Char} {pos stop : Nat} {index : Option LineIndex}
    {sts : List Statement} {st : Statement} (h : splitStatements src pos index = .ok (sts, stop))
    (hst : st ∈ sts) (index' : Option LineIndex) :
    splitStatements (slice src st.start st.stop) 0 index' =
      .ok ([⟨st.kind, 0, (slice src st.start st.stop).length⟩], (slice src st.start st.stop).length) := by
  obtain ⟨e, hread⟩ := (runs_of_splitStatements h).exists_readTo hst
  have hkey := hread.keyword
  have hscan := hread.scan
  rw [drop_eq_slice_append hread.start_le] at hkey hscan
  nth_rewrite 1 [drop_eq_slice_append hread.stop_le] at hscan
  exact splitStatements_whole (keywordHere?_of_append hkey hread.starts)
    (statementRest_cut hread.trail hscan) hread.trimmed index'

/-- A run whose statements end in a quote with a backslash before the line break, in a comment, and in a
template that is not ended, each with blanks after it. -/
def looseRun : List Char :=
  "import 'a\\\n  \nexport (x) // y/ \nexport \x60z\n ".toList

theorem statement_rescans_loose :
    splitStatements looseRun 0 none = .ok ([⟨.import, 0, 10⟩, ⟨.export, 14, 30⟩, ⟨.export, 32, 41⟩], 43) ∧
      splitStatements (slice looseRun 0 10) 0 none = .ok ([⟨.import, 0, 10⟩], 10) ∧
      splitStatements (slice looseRun 32 41) 0 none = .ok ([⟨.export, 0, 9⟩], 9) := by
  have h : splitStatements looseRun 0 none =
      .ok ([⟨.import, 0, 10⟩, ⟨.export, 14, 30⟩, ⟨.export, 32, 41⟩], 43) :=
    eq_ok_of_toOption (by decide +kernel)
  have hquote : (slice looseRun 0 10).length = 10 := by decide +kernel
  have htemplate : (slice looseRun 32 41).length = 9 := by decide +kernel
  have hfirst := statement_rescans h List.mem_cons_self none
  have hlast := statement_rescans h
    (List.mem_cons_of_mem _ (List.mem_cons_of_mem _ List.mem_cons_self)) none
  dsimp only at hfirst hlast
  rw [hquote] at hfirst
  rw [htemplate] at hlast
  exact ⟨h, hfirst, hlast⟩

end Mdx.Script
