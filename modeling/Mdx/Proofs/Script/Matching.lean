import Mdx.Proofs.Fault.Result
import Mdx.Proofs.Script.Balanced
import Mdx.Proofs.Script.Tiling

/-!
# Two ways to match brackets

The scan for the end of a statement keeps one stack of awaited brackets, from its keyword to its end.  The
scan for the end of a group starts with a stack of its own.  Below a stack that is not empty the one does
what the other does: `statementRest_append_iff` splits the stack of a statement into the brackets
`top :: below` of the groups that are open and the `base` under them, and says that the scan gets to the
end of these groups, and then goes on with the base.

So a statement may as well be scanned with no stack at all, each group being passed over as a whole
(`groupedEnd?`).
-/

namespace Mdx.Script

variable {kind : StatementKind}

/-! ### Groups in a statement -/

/-- **A statement with open groups ends where it ends after them.** -/
theorem statementRest_append_iff (base : List Awaited) {r : List Char} : ∀ (s : List Char) (top : Awaited)
    (below : List Awaited), statementRest kind (top :: (below ++ base)) s = .ok r ↔
      ∃ u : List Char, scanGroup s.length ((top :: below).map Awaited.closer) s = .closed u ∧
        statementRest kind base u = .ok r := by
  intro s
  -- the text gets shorter; the groups that are open may change
  induction hn : s.length using Nat.strong_induction_on generalizing s with
  | _ n ih =>
    subst hn
    intro top below
    cases s with
    | nil => simp [statementRest, scanGroup_nil]
    | cons c rest =>
      have hrest := ih rest.length (Nat.lt_succ_self _) rest rfl
      rw [List.length_cons]
      cases hl : literalRest? (c :: rest) with
      | some after =>
        have hlt : after.length < rest.length + 1 := length_lt_of_literalRest? hl
        have hroom : rest.length + 1 - (rest.length + 1 - after.length) = after.length := by omega
        rw [statementRest_literal hl, scanGroup_literal hl, hroom]
        exact ih after.length hlt after rfl top below
      | none =>
        rw [scanGroup_char hl]
        cases hopen : closerOf? c with
        | some closer =>
          rw [statementRest_open hl hopen]
          exact hrest ⟨closer, c :: rest⟩ (top :: below)
        | none =>
          dsimp only
          cases hclose : isCloser c with
          | false =>
            rw [statementRest_plain hl hopen hclose, List.isEmpty_cons, Bool.and_false,
              if_neg Bool.false_ne_true, if_neg Bool.false_ne_true]
            exact hrest top below
          | true =>
            rw [statementRest_close hl hopen hclose, if_pos rfl, List.map_cons]
            dsimp only
            by_cases htop : top.closer != c
            · simp [htop]
            · rw [if_neg htop, if_neg htop]
              cases below with
              | nil => simp
              | cons next below => exact hrest next below

/-- **A group in a statement is passed over as a whole.** -/
theorem statementRest_group_iff {stack : List Awaited} {c closer : Char} {rest r : List Char}
    (hcloser : closerOf? c = some closer) :
    statementRest kind stack (c :: rest) = .ok r ↔
      ∃ u : List Char, groupRest? (c :: rest) = some u ∧ statementRest kind stack u = .ok r := by
  have hlit : literalRest? (c :: rest) = none := (bracket_facts hcloser).1 rest
  have hgroup : ∀ u : List Char,
      groupRest? (c :: rest) = some u ↔ scanGroup rest.length [closer] rest = .closed u := by
    intro u
    rw [groupRest?, List.length_cons, scanGroup_char hlit, hcloser]
    dsimp only
    cases scanGroup rest.length [closer] rest <;> simp
  simp only [hgroup]
  rw [statementRest_open hlit hcloser]
  exact statementRest_append_iff stack rest ⟨closer, c :: rest⟩ []

theorem toOption_statementRest_group {stack : List Awaited} {c closer : Char} {rest : List Char}
    (hcloser : closerOf? c = some closer) :
    (statementRest kind stack (c :: rest)).toOption =
      (groupRest? (c :: rest)).bind fun u => (statementRest kind stack u).toOption := by
  refine Option.ext fun r => ?_
  rw [Option.bind_eq_some_iff]
  simp only [toOption_eq_some_iff]
  exact statementRest_group_iff hcloser

/-! ### The scan without a stack -/

variable {src : List Char} {i e : Nat}

theorem groupEnd?_eq_map (src : List Char) (i : Nat) :
    groupEnd? src i src.length = .ok ((groupRest? (src.drop i)).map (src.length - ·.length)) := by
  rw [groupEnd?_eq, scanFrom, groupRest?, List.length_drop]
  cases scanGroup (src.length - i) [] (src.drop i) <;> rfl

theorem groupRest?_of_groupEnd? (h : groupEnd? src i src.length = .ok (some e)) :
    groupRest? (src.drop i) = some (src.drop e) ∧ i < e ∧ e ≤ src.length := by
  rw [groupEnd?_eq_map] at h
  obtain ⟨r, hr, rfl⟩ := Option.map_eq_some_iff.mp (Except.ok.inj h)
  have hlt : r.length < src.length - i := List.length_drop ▸ length_lt_of_groupRest? hr
  have hsuffix : r <:+ src := (groupRest?_suffix hr).trans (List.drop_suffix i src)
  have hdrop : r = src.drop (src.length - r.length) := List.suffix_iff_eq_drop.mp hsuffix
  exact ⟨hr.trans (congrArg some hdrop), by omega, by omega⟩

theorem literalRest?_of_not_skipLiteral {c : Char} (hc : src[i]? = some c)
    (h : ∀ e : Nat, skipLiteral src i = .ok (some e) → False) :
    literalRest? (c :: src.drop (i + 1)) = none := by
  obtain ⟨hi, -⟩ := List.getElem?_eq_some_iff.mp hc
  rw [Option.eq_none_iff_forall_ne_some]
  intro r hr
  refine h (src.length - r.length) ?_
  rw [skipLiteral, if_pos hi, literalEnd?, drop_of_getElem? hc, hr]
  rfl

theorem sub_lt_of_skipLiteral (h : skipLiteral src i = .ok (some e)) : src.length - e < src.length - i := by
  obtain ⟨-, hlt, hle⟩ := literalRest?_of_skipLiteral h
  omega

theorem sub_lt_of_groupEnd? (h : groupEnd? src i src.length = .ok (some e)) :
    src.length - e < src.length - i := by
  obtain ⟨-, hlt, hle⟩ := groupRest?_of_groupEnd? h
  omega

theorem sub_lt_of_getElem? {c : Char} (h : src[i]? = some c) : src.length - (i + 1) < src.length - i := by
  obtain ⟨hi, -⟩ := List.getElem?_eq_some_iff.mp h
  omega

/-- Where a statement ends that is scanned from an offset on, each literal and each group being passed over
as a whole: at the first line break or with the text.  There is no end if a group does not close or a
closing bracket stands outside of all groups. -/
def groupedEnd? (src : List Char) (i : Nat) : Option Nat :=
  match hc : src[i]? with
  | none => some src.length
  | some c =>
      have : src.length - (i + 1) < src.length - i := sub_lt_of_getElem? hc
      match hl : skipLiteral src i with
      | .ok (some after) =>
          have : src.length - after < src.length - i := sub_lt_of_skipLiteral hl
          groupedEnd? src after
      | _ =>
          if (closerOf? c).isSome then
            match hg : groupEnd? src i src.length with
            | .ok (some after) =>
                have : src.length - after < src.length - i := sub_lt_of_groupEnd? hg
                groupedEnd? src after
            | _ => none
          else if isCloser c then none
          else if c = '\n' then some i
          else groupedEnd? src (i + 1)
termination_by src.length - i

/-- **The two scans end at the same offset, or both fail.** -/
theorem groupedEnd?_eq (kind : StatementKind) (src : List Char) (i : Nat) :
    groupedEnd? src i = (statementRest kind [] (src.drop i)).toOption.map (src.length - ·.length) := by
  fun_induction groupedEnd? src i with
  | case1 i hc =>
    rw [List.drop_eq_nil_of_le (List.getElem?_eq_none_iff.mp hc), statementRest]
    rfl
  | case2 i c hc _ after hl _ ih =>
    obtain ⟨hlit, -, -⟩ := literalRest?_of_skipLiteral hl
    rw [drop_of_getElem? hc] at hlit
    rw [ih, drop_of_getElem? hc, statementRest_literal hlit]
  | case3 i c hc _ hopen after hg _ hl ih =>
    obtain ⟨closer, hcloser⟩ := Option.isSome_iff_exists.mp hopen
    obtain ⟨hgroup, -, -⟩ := groupRest?_of_groupEnd? hg
    rw [drop_of_getElem? hc] at hgroup
    rw [ih, drop_of_getElem? hc, toOption_statementRest_group hcloser, hgroup, Option.bind_some]
  | case4 i c hc _ hopen hl hg =>
    obtain ⟨closer, hcloser⟩ := Option.isSome_iff_exists.mp hopen
    have hnone : groupRest? (src.drop i) = none := by
      rw [Option.eq_none_iff_forall_ne_some]
      intro r hr
      exact hg _ (by rw [groupEnd?_eq_map, hr, Option.map_some])
    rw [drop_of_getElem? hc] at hnone ⊢
    rw [toOption_statementRest_group hcloser, hnone]
    rfl
  | case5 i c hc _ hopen hclose hl =>
    rw [drop_of_getElem? hc, statementRest_stray (literalRest?_of_not_skipLiteral hc hl) (by simpa using hopen)
      hclose]
    rfl
  | case6 i hl hc _ hopen hclose =>
    obtain ⟨hi, -⟩ := List.getElem?_eq_some_iff.mp hc
    have hoffset : src.length - (src.drop i).length = i := by
      rw [List.length_drop]
      omega
    rw [drop_of_getElem? hc, statementRest_feed, ← drop_of_getElem? hc]
    exact congrArg some hoffset.symm
  | case7 i c hc _ hopen hclose hbreak hl ih =>
    rw [ih, drop_of_getElem? hc, statementRest_plain (literalRest?_of_not_skipLiteral hc hl)
      (by simpa using hopen) (by simpa using hclose), if_neg (by simp [hbreak])]

/-! ### Where the scan fails -/

/-- The fault is a bracket in the text `s`, and what is left is the text from there on: a closing bracket
that is not awaited, or an opening one that is not closed. -/
def IsBracketFault (kind : StatementKind) (s : List Char) (fault : StructureCause × List Char) : Prop :=
  fault.2 <:+ s ∧ ∃ (c : Char) (rest : List Char), fault.2 = c :: rest ∧
    (isCloser c = true ∧ fault.1 = .strayBracket kind c ∨
      ∃ closer : Char, closerOf? c = some closer ∧ fault.1 = .missingBracket kind closer)

/-- The awaited bracket is that of an opening one in the text `s`. -/
def Awaited.IsIn (s : List Char) (a : Awaited) : Prop :=
  a.opened <:+ s ∧ ∃ (c : Char) (rest : List Char), a.opened = c :: rest ∧ closerOf? c = some a.closer

/-- **A statement fails at a bracket.** -/
theorem isBracketFault_of_statementRest {t s : List Char} {stack : List Awaited}
    {fault : StructureCause × List Char} (hs : s <:+ t) (hstack : ∀ a ∈ stack, a.IsIn t)
    (h : statementRest kind stack s = .error fault) : IsBracketFault kind t fault := by
  fun_induction statementRest kind stack s with
  | case1 => cases h
  | case2 top below =>
    cases h
    obtain ⟨hsuffix, c, rest, hopened, hcloser⟩ := hstack top List.mem_cons_self
    exact ⟨hsuffix, c, rest, hopened, .inr ⟨top.closer, hcloser, rfl⟩⟩
  | case3 stack c rest after hlit _ ih => exact ih ((literalRest?_suffix hlit).trans hs) hstack h
  | case4 stack c rest hlit closer hopen ih =>
    refine ih ((List.suffix_cons c rest).trans hs) (List.forall_mem_cons.mpr ⟨?_, hstack⟩) h
    exact ⟨hs, c, rest, rfl, hopen⟩
  | case5 c rest hlit hopen hclose =>
    cases h
    exact ⟨hs, c, rest, rfl, .inl ⟨hclose, rfl⟩⟩
  | case6 c rest hlit hopen hclose top below hne =>
    cases h
    exact ⟨hs, c, rest, rfl, .inl ⟨hclose, rfl⟩⟩
  | case7 c rest hlit hopen hclose top below hne ih =>
    exact ih ((List.suffix_cons c rest).trans hs) (List.forall_mem_cons.mp hstack).2 h
  | case8 => cases h
  | case9 stack c rest hlit hopen hclose hbreak ih =>
    exact ih ((List.suffix_cons c rest).trans hs) hstack h

/-! ### The first statement of a run -/

/-- The statement that is scanned from one offset up to another, blanks at its end left off. -/
def Statement.upTo (src : List Char) (kind : StatementKind) (start stop : Nat) : Statement :=
  ⟨kind, start, start + (Text.trimEnd (slice src start stop)).length⟩

theorem statementUpTo_drop {start stop : Nat} (hstart : start ≤ src.length) (hstop : stop ≤ src.length) :
    statementUpTo src.length kind (src.drop start) (src.drop stop) = .upTo src kind start stop := by
  have hoffset : src.length - (src.length - start) = start := by omega
  have hsize : src.length - start - (src.length - stop) = stop - start := by omega
  rw [statementUpTo, List.length_drop, List.length_drop, hoffset, hsize]
  rfl

section First

variable {pos start : Nat} (hhere : statementHere? (src.drop pos) = some (kind, src.drop start))

include hhere

theorem splitStatements_error (index : Option LineIndex) {fault : StructureCause × List Char}
    (hrest : statementRest kind [] (src.drop start) = .error fault) :
    ∃ position : Option Position, splitStatements src pos index = .error ⟨fault.1, position⟩ := by
  rw [splitStatements, statementRun_error hhere hrest]
  exact ⟨_, rfl⟩

/-- The first statement is taken off, and the run ends there or goes on with the next line. -/
theorem splitStatements_ok (index : Option LineIndex) (hle : e ≤ src.length)
    (hrest : statementRest kind [] (src.drop start) = .ok (src.drop e)) :
    splitStatements src pos index =
      if (statementKeyword? src (e + 1)).isSome then
        (splitStatements src (e + 1) index).map fun r => (.upTo src kind start e :: r.1, r.2)
      else .ok ([.upTo src kind start e], e) := by
  obtain ⟨-, -, -, hkey⟩ := exists_indent hhere
  have hupTo : statementUpTo src.length kind (src.drop start) (src.drop e) = .upTo src kind start e :=
    statementUpTo_drop (lt_length_of_keywordHere? hkey).le hle
  have hnext : (statementKeyword? src (e + 1)).isSome = (statementHere? (src.drop (e + 1))).isSome := by
    rw [statementKeyword?, Option.isSome_map]
  rw [hnext]
  split
  next hsome =>
    have hbreak : src.drop e = '\n' :: src.drop (e + 1) := by
      rcases statementRest_eq_nil_or_cons hrest with hnil | ⟨next, hnext⟩
      · rw [List.drop_eq_nil_of_le (Nat.le_succ_of_le (List.drop_eq_nil_iff.mp hnil))] at hsome
        cases hsome
      · rw [hnext, ← List.tail_drop, hnext, List.tail_cons]
    rw [hbreak] at hrest hupTo
    rw [splitStatements, splitStatements, statementRun_more hhere hrest hsome, hupTo]
    cases statementRun src.length (src.drop (e + 1)) <;> rfl
  next hnone =>
    have hlast : ∀ (c : Char) (next : List Char), src.drop e = c :: next → statementHere? next = none := by
      intro c next heq
      rw [← List.tail_drop, heq, List.tail_cons] at hnone
      simpa using hnone
    have hend : src.length - (src.drop e).length = e := by
      rw [List.length_drop]
      omega
    rw [splitStatements, statementRun_last hhere hrest hlast, hupTo]
    dsimp only
    rw [hend]

end First

/-- **The two ways to match brackets agree.**  Let a statement start at the offset `start`, and scan it from
there without a stack.  If that scan ends, then so does the scan with a stack, at the same offset, and this
is where the statement is cut off.  It fails if and only if the scan with a stack fails; the fault is then a
bracket of the statement, and splitting the text fails with it. -/
theorem bracket_matchers_agree {src : List Char} {pos start : Nat} {kind : StatementKind}
    (hhere : statementHere? (src.drop pos) = some (kind, src.drop start)) (index : Option LineIndex) :
    (∀ e : Nat, groupedEnd? src start = some e →
      e ≤ src.length ∧ statementRest kind [] (src.drop start) = .ok (src.drop e) ∧
      splitStatements src pos index =
        if (statementKeyword? src (e + 1)).isSome then
          (splitStatements src (e + 1) index).map fun r => (.upTo src kind start e :: r.1, r.2)
        else .ok ([.upTo src kind start e], e)) ∧
    (groupedEnd? src start = none ↔
      ∃ fault : StructureCause × List Char, statementRest kind [] (src.drop start) = .error fault) ∧
    ∀ fault : StructureCause × List Char, statementRest kind [] (src.drop start) = .error fault →
      IsBracketFault kind (src.drop start) fault ∧
        ∃ position : Option Position, splitStatements src pos index = .error ⟨fault.1, position⟩ := by
  rw [groupedEnd?_eq kind]
  refine ⟨fun e he => ?_, ?_, fun fault hfault => ⟨?_, splitStatements_error hhere index hfault⟩⟩
  · obtain ⟨r, hr, rfl⟩ := Option.map_eq_some_iff.mp he
    have hrest := eq_ok_of_toOption hr
    have hsuffix : r <:+ src := (statementRest_suffix hrest).trans (List.drop_suffix start src)
    have hdrop : r = src.drop (src.length - r.length) := List.suffix_iff_eq_drop.mp hsuffix
    rw [hdrop] at hrest
    have hle : src.length - r.length ≤ src.length := Nat.sub_le _ _
    exact ⟨hle, hrest, splitStatements_ok hhere index hle hrest⟩
  · cases statementRest kind [] (src.drop start) with
    | ok r => simp [Except.toOption]
    | error fault => simp [Except.toOption]
  · exact isBracketFault_of_statementRest List.suffix_rfl (by simp) hfault

/-- A statement with a group in a group, over two lines, and brackets in a quote and in a comment; and then
one with a bracket that closes the wrong way. -/
def nestedRun : List Char :=
  "  import \x7ba, [b\n]\x7d from 'c)' // (\nexport (x]".toList

theorem bracket_matchers_agree_nested :
    groupedEnd? nestedRun 2 = some 33 ∧
      statementRest .import [] (nestedRun.drop 2) = .ok (nestedRun.drop 33) ∧
      groupedEnd? nestedRun 34 = none ∧
      ∃ fault : StructureCause × List Char,
        statementRest .export [] (nestedRun.drop 34) = .error fault ∧
          IsBracketFault .export (nestedRun.drop 34) fault ∧
          ∃ position : Option Position, splitStatements nestedRun 34 none = .error ⟨fault.1, position⟩ := by
  have hfirst : statementHere? (nestedRun.drop 0) = some (.import, nestedRun.drop 2) := by decide +kernel
  have hsecond : statementHere? (nestedRun.drop 34) = some (.export, nestedRun.drop 34) := by
    decide +kernel
  have hend : groupedEnd? nestedRun 2 = some 33 := by decide +kernel
  have hfails : groupedEnd? nestedRun 34 = none := by decide +kernel
  obtain ⟨-, hnone, hfault⟩ := bracket_matchers_agree hsecond none
  obtain ⟨fault, herror⟩ := hnone.mp hfails
  exact ⟨hend, ((bracket_matchers_agree hfirst none).1 33 hend).2.1, hfails, fault, herror,
    hfault fault herror⟩

end Mdx.Script
