import Mdx.Proofs.Script.Inert
import Mdx.Script.Statement

/-!
# The scan of a statement

What one step of the scan for the end of a statement does, for each kind of character: a literal is
passed over, an opening bracket is awaited to close, a closing one has to be the one awaited, and a line
break ends the statement if none is.  The scan goes through text without brackets and literals as it
goes through nothing (`statementRest_append`), and so through the keyword and through blanks.
-/

namespace Mdx.Script

/-! ### Where a statement ends -/

theorem statementRest_suffix {kind : StatementKind} {stack : List Awaited} {s r : List Char}
    (h : statementRest kind stack s = .ok r) : r <:+ s := by
  fun_induction statementRest kind stack s with
  | case1 =>
    cases h
    exact List.suffix_refl _
  | case2 => cases h
  | case3 stack c rest after hlit _ ih => exact (ih h).trans (literalRest?_suffix hlit)
  | case4 stack c rest hlit closer hopen ih => exact (ih h).trans (List.suffix_cons _ _)
  | case5 => cases h
  | case6 => cases h
  | case7 c rest hlit hopen hclose top below hne ih => exact (ih h).trans (List.suffix_cons _ _)
  | case8 =>
    cases h
    exact List.suffix_refl _
  | case9 stack c rest hlit hopen hclose hbreak ih => exact (ih h).trans (List.suffix_cons _ _)

theorem statementRest_eq_nil_or_cons {kind : StatementKind} {stack : List Awaited} {s r : List Char}
    (h : statementRest kind stack s = .ok r) : r = [] ∨ ∃ next, r = '\n' :: next := by
  fun_induction statementRest kind stack s with
  | case1 => exact .inl (Except.ok.inj h).symm
  | case2 => cases h
  | case3 stack c rest after hlit _ ih => exact ih h
  | case4 stack c rest hlit closer hopen ih => exact ih h
  | case5 => cases h
  | case6 => cases h
  | case7 c rest hlit hopen hclose top below hne ih => exact ih h
  | case8 stack c rest hlit hopen hclose hbreak =>
    have hc : c = '\n' := by simp_all
    exact .inr ⟨rest, hc ▸ (Except.ok.inj h).symm⟩
  | case9 stack c rest hlit hopen hclose hbreak ih => exact ih h

/-! ### One step -/

section Steps

variable {kind : StatementKind} {stack : List Awaited} {c : Char} {rest : List Char}

theorem statementRest_literal {after : List Char} (hlit : literalRest? (c :: rest) = some after) :
    statementRest kind stack (c :: rest) = statementRest kind stack after := by
  rw [statementRest.eq_def]
  dsimp only
  split
  next heq =>
    rw [hlit] at heq
    cases heq
    rfl
  next heq =>
    rw [hlit] at heq
    cases heq

variable (hlit : literalRest? (c :: rest) = none)

include hlit

theorem statementRest_open {closer : Char} (hopen : closerOf? c = some closer) :
    statementRest kind stack (c :: rest) =
      statementRest kind (⟨closer, c :: rest⟩ :: stack) rest := by
  rw [statementRest.eq_def]
  dsimp only
  split
  next heq =>
    rw [hlit] at heq
    cases heq
  next => rw [hopen]

variable (hopen : closerOf? c = none)

include hopen

theorem statementRest_stray (hclose : isCloser c = true) :
    statementRest kind [] (c :: rest) = .error (.strayBracket kind c, c :: rest) := by
  rw [statementRest.eq_def]
  dsimp only
  split
  next heq =>
    rw [hlit] at heq
    cases heq
  next => rw [hopen, if_pos hclose]

theorem statementRest_close (hclose : isCloser c = true) (top : Awaited) (below : List Awaited) :
    statementRest kind (top :: below) (c :: rest) =
      if top.closer != c then .error (.strayBracket kind c, c :: rest)
      else statementRest kind below rest := by
  rw [statementRest.eq_def]
  dsimp only
  split
  next heq =>
    rw [hlit] at heq
    cases heq
  next => rw [hopen, if_pos hclose]

theorem statementRest_plain (hclose : isCloser c = false) :
    statementRest kind stack (c :: rest) =
      if c == '\n' && stack.isEmpty then .ok (c :: rest) else statementRest kind stack rest := by
  rw [statementRest.eq_def]
  dsimp only
  split
  next heq =>
    rw [hlit] at heq
    cases heq
  next => rw [hopen, if_neg (by simp [hclose])]

end Steps

theorem statementRest_return (kind : StatementKind) (stack : List Awaited) (s : List Char) :
    statementRest kind stack ('\r' :: s) = statementRest kind stack s := by
  rw [statementRest_plain (literalRest?_eq_none (by decide) (by decide) s) (by decide) (by decide)]
  rfl

theorem statementRest_feed (kind : StatementKind) (stack : List Awaited) (s : List Char) :
    statementRest kind stack ('\n' :: s) =
      if stack.isEmpty then .ok ('\n' :: s) else statementRest kind stack s := by
  rw [statementRest_plain (literalRest?_eq_none (by decide) (by decide) s) (by decide) (by decide)]
  rfl

/-! ### Text without brackets and literals -/

theorem statementRest_char {kind : StatementKind} {stack : List Awaited} {c : Char} (hc : c ∉ marks)
    (hbreak : stack = [] → c ≠ '\n') (rest : List Char) :
    statementRest kind stack (c :: rest) = statementRest kind stack rest := by
  obtain ⟨hlit, hopen, hclose⟩ := not_mem_marks hc
  rw [statementRest_plain (hlit rest) hopen hclose, if_neg]
  simpa using fun hn hs => hbreak hs hn

/-- **The scan goes through plain text**, but for a line break where no bracket is awaited. -/
theorem statementRest_append {kind : StatementKind} {stack : List Awaited} {x : List Char}
    (hx : Plain x) (hbreak : stack = [] → '\n' ∉ x) (rest : List Char) :
    statementRest kind stack (x ++ rest) = statementRest kind stack rest := by
  induction x with
  | nil => rfl
  | cons c x ih =>
    obtain ⟨hc, hx⟩ := List.forall_mem_cons.mp hx
    rw [List.cons_append, statementRest_char hc]
    · exact ih hx fun hs => (List.not_mem_of_not_mem_cons (hbreak hs))
    · rintro hs rfl
      exact hbreak hs List.mem_cons_self

theorem plain_of_isBlank {x : List Char} (h : ∀ c ∈ x, Text.isBlank c = true) : Plain x := by
  have hmarks : (marks.all fun c => !Text.isBlank c) = true := by decide
  intro c hc hmark
  have hnot := List.all_eq_true.mp hmarks c hmark
  rw [h c hc] at hnot
  cases hnot

/-! ### Keywords -/

theorem keywordHere?_eq_some_iff {s : List Char} {kind : StatementKind} :
    keywordHere? s = some kind ↔
      ∃ rest : List Char, s = kind.keyword.toList ++ rest ∧ isKeywordEnd rest = true := by
  constructor
  · intro h
    unfold keywordHere? at h
    split at h
    next rest =>
      split at h
      · cases h
        exact ⟨rest, rfl, by assumption⟩
      · cases h
    next rest =>
      split at h
      · cases h
        exact ⟨rest, rfl, by assumption⟩
      · cases h
    · cases h
  · rintro ⟨rest, rfl, hend⟩
    cases kind with
    | «import» => exact if_pos hend
    | «export» => exact if_pos hend

theorem ne_break_of_mem_keyword (kind : StatementKind) :
    ∀ c ∈ kind.keyword.toList, c ≠ '\r' ∧ c ≠ '\n' := by
  have hall : (kind.keyword.toList.all fun c => c != '\r' && c != '\n') = true := by
    cases kind <;> decide +kernel
  simpa using hall

theorem plain_keyword (kind : StatementKind) : Plain kind.keyword.toList := by
  cases kind <;> decide +kernel

theorem statementRest_keyword (kind : StatementKind) (rest : List Char) :
    statementRest kind [] (kind.keyword.toList ++ rest) = statementRest kind [] rest :=
  statementRest_append (plain_keyword kind) (fun _ hn => (ne_break_of_mem_keyword kind _ hn).2 rfl) rest

theorem lt_length_of_keywordHere? {src : List Char} {pos : Nat} {kind : StatementKind}
    (h : keywordHere? (src.drop pos) = some kind) : pos < src.length := by
  by_contra hle
  rw [List.drop_eq_nil_of_le (Nat.le_of_not_lt hle)] at h
  cases h

theorem exists_indent {s body : List Char} {kind : StatementKind}
    (h : statementHere? s = some (kind, body)) :
    ∃ indent : List Char, s = indent ++ body ∧ (∀ c ∈ indent, Text.isIndent c = true) ∧
      keywordHere? body = some kind := by
  obtain ⟨kind', hkey, heq⟩ := Option.map_eq_some_iff.mp h
  obtain ⟨rfl, rfl⟩ := Prod.mk.inj heq
  exact ⟨s.takeWhile Text.isIndent, List.takeWhile_append_dropWhile.symm,
    fun c hc => List.mem_takeWhile_imp hc, hkey⟩

theorem statementHere?_of_keywordHere? {s : List Char} {kind : StatementKind}
    (h : keywordHere? s = some kind) : statementHere? s = some (kind, s) := by
  have hbody : s.dropWhile Text.isIndent = s := by
    obtain ⟨rest, rfl, -⟩ := keywordHere?_eq_some_iff.mp h
    cases kind <;> rfl
  rw [statementHere?, hbody, h]
  rfl

theorem suffix_of_statementHere? {s body : List Char} {kind : StatementKind}
    (h : statementHere? s = some (kind, body)) : body <:+ s := by
  obtain ⟨indent, rfl, -, -⟩ := exists_indent h
  exact List.suffix_append indent body

end Mdx.Script
