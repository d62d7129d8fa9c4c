import Mdx.Element.Lexer
import Mdx.Proofs.Script.Cut
import Mdx.Proofs.Text.Runs

/-!
# What follows a tag

A tag or a comment ends with a closing angle bracket (`lexemeAfter_suffix`), and nothing after that
bracket has a say in how it is read: any other text may follow instead (`lexemeAfter_replace`).  An
opening bracket that is text stays text if what follows it is cut short
(`lexemeAfter_eq_none_of_append`).

The reason is the same for names, blanks, attributes and values without quotes: none of them goes
past a closing angle bracket, so the runs of characters before the bracket do not depend on what
comes after it (`dropWhile_append_cons`, `takeWhile_append_cons`).  Quotes and groups may hold such
brackets, but they have an end of their own.
-/

namespace Mdx.Element

open Mdx.Script (groupRest? groupRest?_append_iff groupRest?_suffix
  length_lt_of_groupRest?)

/-! ### Runs of characters that end at a bracket -/

theorem head?_append_cons (x : List Char) (c : Char) (t t' : List Char) :
    (x ++ c :: t).head? = (x ++ c :: t').head? := by
  cases x <;> rfl

theorem not_append_cons_eq (x : List Char) (c : Char) (t : List Char) : x ++ c :: t ≠ t := by
  intro h
  have := congrArg List.length h
  rw [List.length_append, List.length_cons] at this
  omega

theorem groupRest?_replace {s u r : List Char} (h : groupRest? (s ++ u) = some (r ++ u))
    (u' : List Char) : groupRest? (s ++ u') = some (r ++ u') :=
  groupRest?_append_iff.mpr (groupRest?_append_iff.mp h)

/-! ### Values of attributes -/

theorem valueRest_unquoted {name : String} {c : Char} {rest : List Char}
    (hq : (c == '\x22' || c == '\x27') = false) (hb : (c == '\x7b') = false) :
    valueRest name (c :: rest) =
      let value := (c :: rest).takeWhile isUnquotedChar
      let after := (c :: rest).dropWhile isUnquotedChar
      if value = [] then .error (.invalidValue name, c :: rest)
      else if value.getLast? = some '/' ∧ after.head? = some '>' then .ok ('/' :: after)
      else .ok after := by
  rw [valueRest, hq, hb]
  dsimp only
  generalize (c :: rest).takeWhile isUnquotedChar = value
  generalize (c :: rest).dropWhile isUnquotedChar = after
  rw [if_neg (by simp), if_neg (by simp)]
  cases hv : value.getLast? with
  | none => rw [if_pos (List.getLast?_eq_none_iff.mp hv)]
  | some d =>
    rw [if_neg (by rintro rfl; cases hv)]
    by_cases hd : d = '/'
    · subst hd
      cases after with
      | nil => simp
      | cons e after =>
        by_cases he : e = '>'
        · subst he
          simp
        · simp [he]
    · simp [hd]

theorem valueRest_suffix {name : String} {s r : List Char} (h : valueRest name s = .ok r) :
    r <:+ s := by
  cases s with
  | nil => simp [valueRest] at h
  | cons c rest =>
    by_cases hq : (c == '\x22' || c == '\x27') = true
    · rw [valueRest, if_pos hq] at h
      split at h
      · cases h
      · rename_i q after heq
        obtain rfl := Except.ok.inj h
        have hs : q :: after <:+ rest := heq ▸ List.dropWhile_suffix (· != c)
        exact (List.suffix_cons q after).trans (hs.trans (List.suffix_cons c rest))
    by_cases hb : (c == '\x7b') = true
    · rw [valueRest, if_neg hq, if_pos hb] at h
      split at h
      · rename_i after heq
        exact Except.ok.inj h ▸ groupRest?_suffix heq
      · cases h
    rw [valueRest_unquoted (by simpa using hq) (by simpa using hb)] at h
    dsimp only at h
    split at h
    · cases h
    · split at h
      · -- the value's last character goes back to the text
        rename_i hlast
        obtain rfl := Except.ok.inj h
        obtain ⟨v, hv⟩ := List.getLast?_eq_some_iff.mp hlast.1
        have happ := List.takeWhile_append_dropWhile (p := isUnquotedChar) (l := c :: rest)
        rw [hv, List.append_assoc] at happ
        exact ⟨v, happ⟩
      · exact Except.ok.inj h ▸ List.dropWhile_suffix isUnquotedChar

/-- **A value is read the same whatever follows the next closing bracket.** -/
theorem valueRest_replace {name : String} {x y t : List Char}
    (h : valueRest name (x ++ '>' :: t) = .ok (y ++ '>' :: t)) (t' : List Char) :
    valueRest name (x ++ '>' :: t') = .ok (y ++ '>' :: t') := by
  cases x with
  | nil =>
    rw [List.nil_append, valueRest_unquoted (by decide) (by decide)] at h
    dsimp only at h
    rw [List.takeWhile_cons_of_neg (by decide), if_pos rfl] at h
    cases h
  | cons c x =>
    rw [List.cons_append] at h ⊢
    by_cases hq : (c == '\x22' || c == '\x27') = true
    · rw [valueRest, if_pos hq] at h ⊢
      rw [List.dropWhile_append] at h ⊢
      cases hd : x.dropWhile (· != c) with
      | nil =>
        -- the quote would end after the bracket
        rw [hd, List.isEmpty_nil, if_pos rfl] at h
        split at h
        · cases h
        · rename_i q after heq
          have hle := (List.dropWhile_suffix (l := '>' :: t) (· != c)).length_le
          rw [heq, Except.ok.inj h] at hle
          simp only [List.length_cons, List.length_append] at hle
          omega
      | cons q after =>
        rw [hd, List.isEmpty_cons, if_neg (by simp), List.cons_append] at h
        rw [List.isEmpty_cons, if_neg (by simp), List.cons_append]
        rw [List.append_cancel_right (Except.ok.inj h)]
    by_cases hb : (c == '\x7b') = true
    · rw [valueRest, if_neg hq, if_pos hb] at h ⊢
      split at h
      · rename_i after heq
        obtain rfl := Except.ok.inj h
        rw [← List.cons_append] at heq ⊢
        rw [groupRest?_replace heq ('>' :: t')]
      · cases h
    have hq' : (c == '\x22' || c == '\x27') = false := by simpa using hq
    have hb' : (c == '\x7b') = false := by simpa using hb
    rw [valueRest_unquoted hq' hb'] at h ⊢
    rw [← List.cons_append] at h ⊢
    dsimp only at h ⊢
    rw [takeWhile_append_cons (by decide), dropWhile_append_cons (by decide)] at h ⊢
    rw [head?_append_cons _ '>' t' t]
    split
    · rename_i hv
      rw [if_pos hv] at h
      cases h
    · rename_i hv
      rw [if_neg hv] at h
      split
      · rename_i hl
        rw [if_pos hl, ← List.cons_append] at h
        rw [← List.append_cancel_right (Except.ok.inj h), List.cons_append]
      · rename_i hl
        rw [if_neg hl] at h
        rw [← List.append_cancel_right (Except.ok.inj h)]

/-! ### One attribute -/

/-- The text after the attribute or the spread expression that starts here. -/
def attributeRest (name : String) (c : Char) (rest : List Char) : Except Fault (List Char) :=
  if c == '\x7b' then
    match groupRest? (c :: rest) with
    | some after => .ok after
    | none => .error (.unbalancedExpression name, c :: rest)
  else if isAttributeChar c then
    let next := (rest.dropWhile isAttributeChar).dropWhile Text.isBlank
    if next.head? == some '=' then valueRest name (next.tail.dropWhile Text.isBlank) else .ok next
  else .error (.unexpectedCharacter c name, c :: rest)

theorem attributeRest_suffix {name : String} {c : Char} {rest next : List Char}
    (h : attributeRest name c rest = .ok next) : next <:+ rest := by
  rw [attributeRest] at h
  split at h
  · split at h
    · rename_i after hg
      obtain rfl := Except.ok.inj h
      refine List.suffix_of_suffix_length_le (groupRest?_suffix hg) (List.suffix_cons c rest) ?_
      exact Nat.le_of_lt_succ (length_lt_of_groupRest? hg)
    · cases h
  split at h
  · have hnext := (List.dropWhile_suffix (l := rest.dropWhile isAttributeChar) Text.isBlank).trans
      (List.dropWhile_suffix isAttributeChar)
    dsimp only at h
    split at h
    · exact ((valueRest_suffix h).trans (List.dropWhile_suffix Text.isBlank)).trans
        ((List.tail_suffix _).trans hnext)
    · exact Except.ok.inj h ▸ hnext
  · cases h

/-- **An attribute is read the same whatever follows the next closing bracket.** -/
theorem attributeRest_replace {name : String} {c : Char} {x y t : List Char}
    (h : attributeRest name c (x ++ '>' :: t) = .ok (y ++ '>' :: t)) (t' : List Char) :
    attributeRest name c (x ++ '>' :: t') = .ok (y ++ '>' :: t') := by
  rw [attributeRest] at h ⊢
  split
  · rename_i hc
    rw [if_pos hc] at h
    split at h
    · rename_i after hg
      obtain rfl := Except.ok.inj h
      rw [← List.cons_append] at hg ⊢
      rw [groupRest?_replace hg]
    · cases h
  rename_i hc
  rw [if_neg hc] at h
  split
  · rename_i ha
    rw [if_pos ha] at h
    dsimp only at h ⊢
    rw [dropWhile_append_cons (by decide), dropWhile_append_cons (by decide)] at h ⊢
    generalize (x.dropWhile isAttributeChar).dropWhile Text.isBlank = w at h ⊢
    rw [head?_append_cons w '>' t' t]
    split
    · rename_i heq
      rw [if_pos heq] at h
      cases w with
      | nil => simp at heq
      | cons d w =>
        rw [List.cons_append, List.tail_cons, dropWhile_append_cons (by decide)] at h ⊢
        exact valueRest_replace h t'
    · rename_i heq
      rw [if_neg heq] at h
      rw [List.append_cancel_right (Except.ok.inj h)]
  · rename_i ha
    rw [if_neg ha] at h
    cases h

/-! ### The end of a tag -/

theorem tagRest_eq (name : String) (start s : List Char) :
    tagRest name start s =
      match s.dropWhile Text.isBlank with
      | [] => .error (.unterminatedTag name, start)
      | c :: rest =>
          if c == '/' && rest.head? == some '>' then .ok (true, rest.tail)
          else if c == '>' then .ok (false, rest)
          else
            match attributeRest name c rest with
            | .error fault => .error fault
            | .ok next => tagRest name start next := by
  fun_cases tagRest name start s
  case case1 hs => rw [hs]
  case case8 c rest hs _ h₁ h₂ h₃ h₄ hne _ =>
    have hhead : ((rest.dropWhile isAttributeChar).dropWhile Text.isBlank).head? ≠ some '=' := by
      intro hh
      obtain ⟨after, ha⟩ := List.head?_eq_some_iff.mp hh
      exact hne after ha
    simp_all [attributeRest]
  all_goals simp_all [attributeRest]

theorem tagRest_suffix {name : String} {start r : List Char} {b : Bool} :
    ∀ s : List Char, tagRest name start s = .ok (b, r) → '>' :: r <:+ s := by
  intro s
  induction hn : s.length using Nat.strong_induction_on generalizing s with
  | _ n ih =>
    subst hn
    intro h
    have hs := List.dropWhile_suffix (l := s) Text.isBlank
    rw [tagRest_eq] at h
    cases hd : s.dropWhile Text.isBlank with
    | nil =>
      rw [hd] at h
      cases h
    | cons c rest =>
      rw [hd] at h hs
      dsimp only at h
      split at h
      · rename_i hc
        obtain ⟨-, rfl⟩ := Prod.mk.inj (Except.ok.inj h)
        cases rest with
        | nil => simp at hc
        | cons d rest =>
          obtain ⟨-, rfl⟩ : c = '/' ∧ d = '>' := by simpa using hc
          exact (List.suffix_cons c ('>' :: rest)).trans hs
      split at h
      · rename_i hc
        obtain ⟨-, rfl⟩ := Prod.mk.inj (Except.ok.inj h)
        obtain rfl : c = '>' := by simpa using hc
        exact hs
      · split at h
        · cases h
        · rename_i next ha
          have hnext := (attributeRest_suffix ha).trans (List.suffix_cons c rest)
          have hlt : next.length < s.length :=
            (Nat.lt_succ_of_le (attributeRest_suffix ha).length_le).trans_le hs.length_le
          exact (ih next.length hlt next rfl h).trans (hnext.trans hs)

/-- **A tag is read the same whatever follows its closing bracket.** -/
theorem tagRest_replace {name : String} {start t : List Char} {b : Bool} (start' t' : List Char) :
    ∀ x : List Char, tagRest name start (x ++ '>' :: t) = .ok (b, t) →
      tagRest name start' (x ++ '>' :: t') = .ok (b, t') := by
  intro x
  induction hn : x.length using Nat.strong_induction_on generalizing x with
  | _ n ih =>
    subst hn
    intro h
    rw [tagRest_eq, dropWhile_append_cons (by decide)] at h ⊢
    have hle := (List.dropWhile_suffix (l := x) Text.isBlank).length_le
    cases hx : x.dropWhile Text.isBlank with
    | nil =>
      rw [hx] at h
      simp only [List.nil_append] at h ⊢
      rw [if_neg (by simp), if_pos (by decide)] at h ⊢
      rw [(Prod.mk.inj (Except.ok.inj h)).1]
    | cons c z =>
      rw [hx, List.length_cons] at hle
      rw [hx] at h
      simp only [List.cons_append] at h ⊢
      rw [head?_append_cons z '>' t' t]
      split
      · rename_i hc
        rw [if_pos hc] at h
        obtain ⟨rfl, ht⟩ := Prod.mk.inj (Except.ok.inj h)
        cases z with
        | nil => rfl
        | cons d z => exact absurd ht (not_append_cons_eq z '>' t)
      rename_i hc
      rw [if_neg hc] at h
      split
      · rename_i hc
        rw [if_pos hc] at h
        exact absurd (Prod.mk.inj (Except.ok.inj h)).2 (not_append_cons_eq z '>' t)
      rename_i hc
      rw [if_neg hc] at h
      split at h
      · cases h
      · -- the rest of the tag ends with the same bracket, so the attribute ends before it
        rename_i next ha
        obtain ⟨y, rfl⟩ := tagRest_suffix next h
        have hlen := (attributeRest_suffix ha).length_le
        simp only [List.length_append, List.length_cons] at hlen
        rw [attributeRest_replace ha t']
        exact ih y.length (by omega) y rfl h

/-! ### Comments -/

theorem commentRest?_cons (c : Char) (rest : List Char) :
    commentRest? (c :: rest) =
      if c == '-' && rest.take 2 == ['-', '>'] then some (rest.drop 2) else commentRest? rest := by
  rw [commentRest?.eq_def]
  rcases rest with _ | ⟨d, _ | ⟨e, rest⟩⟩
  · simp
  · simp
  · by_cases hd : d = '-'
    · by_cases he : e = '>'
      · subst hd he
        simp
      · simp [he]
    · simp [hd]

theorem commentRest?_suffix {r : List Char} : ∀ s : List Char,
    commentRest? s = some r → '>' :: r <:+ s := by
  intro s
  induction s with
  | nil => intro h; cases h
  | cons c rest ih =>
    intro h
    rw [commentRest?_cons] at h
    split at h
    · rename_i hc
      obtain rfl := Option.some.inj h
      obtain ⟨-, htake⟩ : c = '-' ∧ rest.take 2 = ['-', '>'] := by simpa using hc
      refine ⟨[c, '-'], ?_⟩
      conv_rhs => rw [← List.take_append_drop 2 rest, htake]
      rfl
    · exact (ih h).trans (List.suffix_cons c rest)

/-- **A comment is read the same whatever follows it.** -/
theorem commentRest?_replace {t : List Char} (t' : List Char) : ∀ x : List Char,
    commentRest? (x ++ '>' :: t) = some t → commentRest? (x ++ '>' :: t') = some t' := by
  intro x
  induction x with
  | nil =>
    intro h
    rw [List.nil_append, commentRest?_cons, if_neg (by simp)] at h
    have := (commentRest?_suffix t h).length_le
    rw [List.length_cons] at this
    omega
  | cons c x ih =>
    intro h
    have htake : ((x ++ '>' :: t').take 2 == ['-', '>']) = ((x ++ '>' :: t).take 2 == ['-', '>']) := by
      rcases x with _ | ⟨d, _ | ⟨e, x⟩⟩
      · simp
      · rfl
      · rfl
    rw [List.cons_append, commentRest?_cons] at h ⊢
    rw [htake]
    split
    · rename_i hc
      rw [if_pos hc] at h
      rcases x with _ | ⟨d, _ | ⟨e, x⟩⟩
      · simp at hc
      · rfl
      · exact absurd (Option.some.inj h) (not_append_cons_eq x '>' t)
    · rename_i hc
      rw [if_neg hc] at h
      exact ih h

/-! ### Closing tags -/

/-- The bracket of a closing tag whose name has been read. -/
def closingBracket? (name rest : List Char) : Option (String × List Char) :=
  match rest.dropWhile Text.isBlank with
  | '>' :: after => some (String.ofList name, after)
  | _ => none

theorem closingTag?_eq (s : List Char) :
    closingTag? s =
      if (s.dropWhile Text.isBlank).head?.any isNameStart then
        closingBracket? ((s.dropWhile Text.isBlank).takeWhile isNameRest)
          ((s.dropWhile Text.isBlank).dropWhile isNameRest)
      else closingBracket? [] (s.dropWhile Text.isBlank) := by
  rw [closingTag?]
  cases hs : s.dropWhile Text.isBlank with
  | nil => rfl
  | cons c rest =>
    rw [List.head?_cons, Option.any_some]
    by_cases hc : isNameStart c
    · rw [if_pos hc]
      dsimp only
      rw [if_pos hc, drop_length_takeWhile]
      rfl
    · rw [if_neg hc]
      dsimp only
      rw [if_neg hc]
      rfl

theorem closingBracket?_suffix {name rest after : List Char} {n : String}
    (h : closingBracket? name rest = some (n, after)) : '>' :: after <:+ rest := by
  rw [closingBracket?] at h
  split at h
  · rename_i heq
    obtain ⟨-, rfl⟩ := Prod.mk.inj (Option.some.inj h)
    exact heq ▸ List.dropWhile_suffix Text.isBlank
  · cases h

theorem closingBracket?_replace {name x t : List Char} {n : String}
    (h : closingBracket? name (x ++ '>' :: t) = some (n, t)) (t' : List Char) :
    closingBracket? name (x ++ '>' :: t') = some (n, t') := by
  rw [closingBracket?, dropWhile_append_cons (by decide)] at h ⊢
  cases hx : x.dropWhile Text.isBlank with
  | nil =>
    rw [hx, List.nil_append] at h
    exact congrArg some (Prod.ext (Prod.mk.inj (Option.some.inj h)).1 rfl)
  | cons c y =>
    rw [hx, List.cons_append] at h
    split at h
    · rename_i heq
      obtain ⟨-, rfl⟩ := Prod.mk.inj (Option.some.inj h)
      exact absurd (List.cons.inj heq).2 (not_append_cons_eq y '>' _)
    · cases h

theorem closingTag?_suffix {s r : List Char} {name : String}
    (h : closingTag? s = some (name, r)) : '>' :: r <:+ s := by
  rw [closingTag?_eq] at h
  have hs := List.dropWhile_suffix (l := s) Text.isBlank
  split at h
  · exact (closingBracket?_suffix h).trans ((List.dropWhile_suffix isNameRest).trans hs)
  · exact (closingBracket?_suffix h).trans hs

/-- **A closing tag is read the same whatever follows it.** -/
theorem closingTag?_replace {x t : List Char} {name : String}
    (h : closingTag? (x ++ '>' :: t) = some (name, t)) (t' : List Char) :
    closingTag? (x ++ '>' :: t') = some (name, t') := by
  rw [closingTag?_eq, dropWhile_append_cons (by decide)] at h ⊢
  rw [head?_append_cons _ '>' t' t]
  split
  · rename_i hc
    rw [if_pos hc, takeWhile_append_cons (by decide), dropWhile_append_cons (by decide)] at h
    rw [takeWhile_append_cons (by decide), dropWhile_append_cons (by decide)]
    exact closingBracket?_replace h t'
  · rename_i hc
    rw [if_neg hc] at h
    exact closingBracket?_replace h t'

/-! ### Tags and comments -/

/-- The four things that an opening angle bracket may start. -/
inductive Reads : List Char → Lexeme → Prop
  | comment {body r : List Char} (h : commentRest? body = some r) :
      Reads ('!' :: '-' :: '-' :: body) ⟨.comment, "", r⟩
  | closing {body r : List Char} {name : String} (h : closingTag? body = some (name, r)) :
      Reads ('/' :: body) ⟨.closeTag, name, r⟩
  | fragment {r : List Char} : Reads ('>' :: r) ⟨.openTag, "", r⟩
  | tag {c : Char} {tail r : List Char} {b : Bool} (hc : isNameStart c = true)
      (h : tagRest (String.ofList (c :: tail.takeWhile isNameRest)) ('<' :: c :: tail)
        (tail.dropWhile isNameRest) = .ok (b, r)) :
      Reads (c :: tail)
        ⟨if b then .selfClosing else .openTag, String.ofList (c :: tail.takeWhile isNameRest), r⟩

theorem lexemeAfter_comment (body : List Char) :
    lexemeAfter ('!' :: '-' :: '-' :: body) =
      match commentRest? body with
      | some after => .ok (some ⟨.comment, "", after⟩)
      | none => .error (.unterminatedComment, '<' :: '!' :: '-' :: '-' :: body) := by
  rw [lexemeAfter.eq_def]
  rfl

theorem lexemeAfter_slash (body : List Char) :
    lexemeAfter ('/' :: body) =
      match closingTag? body with
      | some (name, after) => .ok (some ⟨.closeTag, name, after⟩)
      | none =>
          if body.head?.any isNameStart then .error (.malformedClosingTag, '<' :: '/' :: body)
          else .ok none := by
  rw [lexemeAfter.eq_def]
  cases body <;> rfl

theorem lexemeAfter_bracket (r : List Char) :
    lexemeAfter ('>' :: r) = .ok (some ⟨.openTag, "", r⟩) := by
  rw [lexemeAfter.eq_def]
  rfl

theorem lexemeAfter_tag {c : Char} (hc : isNameStart c = true) (tail : List Char) :
    lexemeAfter (c :: tail) =
      match tagRest (String.ofList (c :: tail.takeWhile isNameRest)) ('<' :: c :: tail)
        (tail.dropWhile isNameRest) with
      | .error fault => .error fault
      | .ok (b, r) =>
          .ok (some ⟨if b then .selfClosing else .openTag,
            String.ofList (c :: tail.takeWhile isNameRest), r⟩) := by
  rw [lexemeAfter.eq_def]
  split
  · rename_i heq
    exact absurd ((List.cons.inj heq).1 ▸ hc) (by decide)
  · rename_i heq
    exact absurd ((List.cons.inj heq).1 ▸ hc) (by decide)
  · rename_i heq
    exact absurd ((List.cons.inj heq).1 ▸ hc) (by decide)
  · rename_i heq
    obtain ⟨rfl, rfl⟩ := List.cons.inj heq
    rw [if_pos hc]
    dsimp only
    split <;> rename_i htag <;> rw [htag] <;> rfl
  · rename_i heq
    cases heq

/-- A bracket is text if no name, slash, closing bracket or comment mark follows it. -/
theorem lexemeAfter_text {c : Char} {tail : List Char} (hc : isNameStart c = false)
    (h₁ : c ≠ '/') (h₂ : c ≠ '>') (h₃ : ∀ body, c :: tail ≠ '!' :: '-' :: '-' :: body) :
    lexemeAfter (c :: tail) = .ok none := by
  rw [lexemeAfter.eq_def]
  split
  · rename_i body heq
    exact absurd heq (h₃ body)
  · rename_i heq
    exact absurd (List.cons.inj heq).1 h₁
  · rename_i heq
    exact absurd (List.cons.inj heq).1 h₂
  · rename_i heq
    obtain ⟨rfl, rfl⟩ := List.cons.inj heq
    rw [hc]
    rfl
  · rfl

/-- What may follow an opening angle bracket. -/
inductive Follows : List Char → Prop
  | nil : Follows []
  | name {c : Char} {tail : List Char} (hc : isNameStart c = true) : Follows (c :: tail)
  | slash {body : List Char} : Follows ('/' :: body)
  | bracket {r : List Char} : Follows ('>' :: r)
  | comment {body : List Char} : Follows ('!' :: '-' :: '-' :: body)
  | other {c : Char} {tail : List Char} (hc : isNameStart c = false) (h₁ : c ≠ '/') (h₂ : c ≠ '>')
      (h₃ : ∀ body, c :: tail ≠ '!' :: '-' :: '-' :: body) : Follows (c :: tail)

theorem follows (s : List Char) : Follows s := by
  cases s with
  | nil => exact .nil
  | cons c tail =>
    by_cases hc : isNameStart c = true
    · exact .name hc
    by_cases h₁ : c = '/'
    · exact h₁ ▸ .slash
    by_cases h₂ : c = '>'
    · exact h₂ ▸ .bracket
    by_cases h₃ : ∃ body, c :: tail = '!' :: '-' :: '-' :: body
    · obtain ⟨body, hb⟩ := h₃
      exact hb ▸ .comment
    · exact .other (by simpa using hc) h₁ h₂ (not_exists.mp h₃)

theorem lexemeAfter_eq_some_iff {s : List Char} {l : Lexeme} :
    lexemeAfter s = .ok (some l) ↔ Reads s l := by
  constructor
  · intro h
    cases follows s with
    | nil => cases h
    | name hc =>
      rw [lexemeAfter_tag hc] at h
      split at h
      · cases h
      · rename_i heq
        obtain rfl := Option.some.inj (Except.ok.inj h)
        exact .tag hc heq
    | slash =>
      rw [lexemeAfter_slash] at h
      split at h
      · rename_i heq
        obtain rfl := Option.some.inj (Except.ok.inj h)
        exact .closing heq
      · split at h <;> cases h
    | bracket =>
      rw [lexemeAfter_bracket] at h
      obtain rfl := Option.some.inj (Except.ok.inj h)
      exact .fragment
    | comment =>
      rw [lexemeAfter_comment] at h
      split at h
      · rename_i heq
        obtain rfl := Option.some.inj (Except.ok.inj h)
        exact .comment heq
      · cases h
    | other hc h₁ h₂ h₃ =>
      rw [lexemeAfter_text hc h₁ h₂ h₃] at h
      cases h
  · intro h
    cases h with
    | comment h => rw [lexemeAfter_comment, h]
    | closing h => rw [lexemeAfter_slash, h]
    | fragment => rw [lexemeAfter_bracket]
    | tag hc h => rw [lexemeAfter_tag hc, h]

theorem lexemeAfter_suffix {s : List Char} {l : Lexeme} (h : lexemeAfter s = .ok (some l)) :
    '>' :: l.rest <:+ s := by
  cases lexemeAfter_eq_some_iff.mp h with
  | @comment body r hr => exact (commentRest?_suffix body hr).trans ⟨['!', '-', '-'], rfl⟩
  | @closing body r name hr => exact (closingTag?_suffix hr).trans (List.suffix_cons '/' body)
  | fragment => exact List.suffix_rfl
  | @tag c tail r b hc hr =>
    exact (tagRest_suffix _ hr).trans
      ((List.dropWhile_suffix isNameRest).trans (List.suffix_cons c tail))

/-- **A tag or comment is read the same whatever follows it.** -/
theorem lexemeAfter_replace {x t : List Char} {kind : TokenKind} {name : String}
    (h : lexemeAfter (x ++ '>' :: t) = .ok (some ⟨kind, name, t⟩)) (t' : List Char) :
    lexemeAfter (x ++ '>' :: t') = .ok (some ⟨kind, name, t'⟩) := by
  rw [lexemeAfter_eq_some_iff] at h ⊢
  generalize hs : x ++ '>' :: t = s at h
  generalize hl : (⟨kind, name, t⟩ : Lexeme) = l at h
  cases h with
  | @comment body r h =>
    obtain ⟨rfl, rfl, rfl⟩ := Lexeme.mk.inj hl
    obtain ⟨y, rfl⟩ := commentRest?_suffix body h
    obtain rfl : x = '!' :: '-' :: '-' :: y := List.append_cancel_right hs
    exact .comment (commentRest?_replace t' y h)
  | @closing body r n h =>
    obtain ⟨rfl, rfl, rfl⟩ := Lexeme.mk.inj hl
    obtain ⟨y, rfl⟩ := closingTag?_suffix h
    obtain rfl : x = '/' :: y := List.append_cancel_right hs
    exact .closing (closingTag?_replace h t')
  | @fragment r =>
    obtain ⟨rfl, rfl, rfl⟩ := Lexeme.mk.inj hl
    obtain rfl : x = [] := List.append_cancel_right (hs.trans (List.nil_append _).symm)
    exact .fragment
  | @tag c tail r b hc h =>
    obtain ⟨rfl, rfl, rfl⟩ := Lexeme.mk.inj hl
    obtain ⟨y, rfl⟩ := (tagRest_suffix _ h).trans (List.dropWhile_suffix isNameRest)
    obtain rfl : x = c :: y := List.append_cancel_right hs
    rw [takeWhile_append_cons (by decide), dropWhile_append_cons (by decide)] at h
    rw [takeWhile_append_cons (by decide), List.cons_append,
      ← takeWhile_append_cons (p := isNameRest) (c := '>') (by decide) y t']
    refine .tag hc ?_
    rw [takeWhile_append_cons (by decide), dropWhile_append_cons (by decide)]
    exact tagRest_replace _ t' _ h

/-- An angle bracket that is text stays text if what follows is cut short. -/
theorem lexemeAfter_eq_none_of_append {s u : List Char} (h : lexemeAfter (s ++ u) = .ok none) :
    lexemeAfter s = .ok none := by
  cases follows s with
  | nil => rfl
  | name hc =>
    rw [List.cons_append, lexemeAfter_tag hc] at h
    split at h <;> cases h
  | @slash tail =>
    rw [List.cons_append, lexemeAfter_slash] at h
    rw [lexemeAfter_slash]
    split at h
    · cases h
    · rename_i hnone
      split at h
      · cases h
      · rename_i hname
        -- a closing tag before the cut would be one of the whole text
        have htail : closingTag? tail = none := by
          cases ht : closingTag? tail with
          | none => rfl
          | some p =>
            obtain ⟨name, r⟩ := p
            obtain ⟨y, rfl⟩ := closingTag?_suffix ht
            rw [List.append_assoc, List.cons_append, closingTag?_replace ht] at hnone
            cases hnone
        rw [htail]
        cases tail with
        | nil => rfl
        | cons d tail => exact if_neg hname
  | bracket =>
    rw [List.cons_append, lexemeAfter_bracket] at h
    cases h
  | comment =>
    rw [List.cons_append, List.cons_append, List.cons_append, lexemeAfter_comment] at h
    split at h <;> cases h
  | other hc h₁ h₂ h₃ => exact lexemeAfter_text hc h₁ h₂ h₃

/-! ### Where a fault lies -/

theorem valueRest_error_suffix {name : String} {s : List Char} {f : Fault}
    (h : valueRest name s = .error f) : f.2 <:+ s := by
  rw [valueRest.eq_def] at h
  split at h
  · obtain rfl := Except.error.inj h
    exact List.suffix_rfl
  split at h
  · split at h
    · obtain rfl := Except.error.inj h
      exact List.suffix_rfl
    · cases h
  split at h
  · split at h
    · cases h
    · obtain rfl := Except.error.inj h
      exact List.suffix_rfl
  dsimp only at h
  split at h
  · obtain rfl := Except.error.inj h
    exact List.suffix_rfl
  · cases h
  · cases h

theorem attributeRest_error_suffix {name : String} {c : Char} {rest : List Char} {f : Fault}
    (h : attributeRest name c rest = .error f) : f.2 <:+ c :: rest := by
  rw [attributeRest] at h
  split at h
  · split at h
    · cases h
    · obtain rfl := Except.error.inj h
      exact List.suffix_rfl
  split at h
  · dsimp only at h
    split at h
    · have hnext := (List.dropWhile_suffix (l := rest.dropWhile isAttributeChar) Text.isBlank).trans
        (List.dropWhile_suffix isAttributeChar)
      exact ((valueRest_error_suffix h).trans (List.dropWhile_suffix Text.isBlank)).trans
        ((List.tail_suffix _).trans (hnext.trans (List.suffix_cons c rest)))
    · cases h
  · obtain rfl := Except.error.inj h
    exact List.suffix_rfl

theorem tagRest_error_suffix {name : String} {start : List Char} {f : Fault} : ∀ s : List Char,
    s <:+ start → tagRest name start s = .error f → f.2 <:+ start := by
  intro s
  induction hn : s.length using Nat.strong_induction_on generalizing s with
  | _ n ih =>
    subst hn
    intro hstart h
    have hs := (List.dropWhile_suffix (l := s) Text.isBlank).trans hstart
    have hle := (List.dropWhile_suffix (l := s) Text.isBlank).length_le
    rw [tagRest_eq] at h
    cases hd : s.dropWhile Text.isBlank with
    | nil =>
      rw [hd] at h
      obtain rfl := Except.error.inj h
      exact List.suffix_rfl
    | cons c rest =>
      rw [hd] at h hs hle
      rw [List.length_cons] at hle
      dsimp only at h
      split at h
      · cases h
      split at h
      · cases h
      split at h
      · rename_i ha
        exact Except.error.inj h ▸ (attributeRest_error_suffix ha).trans hs
      · rename_i next ha
        have hnext := attributeRest_suffix ha
        refine ih next.length ?_ next rfl (hnext.trans ((List.suffix_cons c rest).trans hs)) h
        exact Nat.lt_of_lt_of_le (Nat.lt_succ_of_le hnext.length_le) hle

theorem lexemeAfter_error_suffix {rest : List Char} {f : Fault} (h : lexemeAfter rest = .error f) :
    f.2 <:+ '<' :: rest := by
  cases follows rest with
  | nil => cases h
  | @name c tail hc =>
    rw [lexemeAfter_tag hc] at h
    split at h
    · rename_i htag
      refine Except.error.inj h ▸ tagRest_error_suffix _ ?_ htag
      exact (List.dropWhile_suffix isNameRest).trans ⟨['<', c], rfl⟩
    · cases h
  | slash =>
    rw [lexemeAfter_slash] at h
    split at h
    · cases h
    split at h
    · obtain rfl := Except.error.inj h
      exact List.suffix_rfl
    · cases h
  | bracket =>
    rw [lexemeAfter_bracket] at h
    cases h
  | comment =>
    rw [lexemeAfter_comment] at h
    split at h
    · cases h
    · obtain rfl := Except.error.inj h
      exact List.suffix_rfl
  | other hc h₁ h₂ h₃ =>
    rw [lexemeAfter_text hc h₁ h₂ h₃] at h
    cases h

end Mdx.Element
