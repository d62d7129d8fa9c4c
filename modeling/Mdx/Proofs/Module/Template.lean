import Mdx.Proofs.Module.Expression
import Mdx.Proofs.Script.Matching

/-!
# Texts as template literals

A text is escaped in one pass.  The same comes of three replacements over the whole text, one after
another: of backslashes, of backticks, and of a dollar sign with an opening brace
(`escapeTemplate_eq_replacedThrice`).  They do not get in each other's way: what is put in front of a
character is a backslash, which no later replacement looks for and which does not join a dollar sign to a
brace.

`templateText` reads the body of a template literal.  It finds in an escaped text neither the end of the
literal nor a substitution, and gives the text back (`templateText_escapeTemplate`).  So the literal ends
at the backtick that is put after it, and a group of braces around it at its brace, for the scanners of
literals and groups too.
-/

namespace Mdx.Module

open Mdx.Script

/-! ### Replacements -/

/-- A text with each occurrence of a word of one character or more replaced by another, from left to
right. -/
def replaceAll (old new s : List Char) : List Char :=
  match s with
  | [] => []
  | c :: rest =>
      if old.isPrefixOf (c :: rest) then new ++ replaceAll old new (rest.drop (old.length - 1))
      else c :: replaceAll old new rest
termination_by s.length
decreasing_by
  · simp only [List.length_drop, List.length_cons]
    omega
  · simp only [List.length_cons]
    omega

section Replace

variable {old new : List Char}

theorem replaceAll_nil : replaceAll old new [] = [] := by
  rw [replaceAll]

theorem replaceAll_word {d : Char} {more : List Char} (rest : List Char) :
    replaceAll (d :: more) new (d :: (more ++ rest)) = new ++ replaceAll (d :: more) new rest := by
  have hword : (d :: more).isPrefixOf (d :: (more ++ rest)) = true :=
    List.isPrefixOf_iff_prefix.mpr (List.prefix_append (d :: more) rest)
  rw [replaceAll, if_pos hword, List.length_cons, Nat.add_sub_cancel, List.drop_left]

theorem replaceAll_other {c : Char} {rest : List Char} (h : ¬old <+: c :: rest) :
    replaceAll old new (c :: rest) = c :: replaceAll old new rest := by
  rw [replaceAll, if_neg fun hp => h (List.isPrefixOf_iff_prefix.mp hp)]

theorem replaceAll_char {c d : Char} {more : List Char} (h : c ≠ d) (rest : List Char) :
    replaceAll (d :: more) new (c :: rest) = c :: replaceAll (d :: more) new rest :=
  replaceAll_other fun hp => h (List.cons_prefix_cons.mp hp).1.symm

theorem replaceAll_self (d : Char) (rest : List Char) :
    replaceAll [d] new (d :: rest) = new ++ replaceAll [d] new rest :=
  replaceAll_word rest

/-- A replacement brings no character to the front that neither the text nor the new word has there. -/
theorem head?_replaceAll_ne {b d e : Char} {more s : List Char} (he : e ≠ b) (hs : s.head? ≠ some b) :
    (replaceAll [d] (e :: more) s).head? ≠ some b := by
  cases s with
  | nil => rwa [replaceAll_nil]
  | cons c rest =>
    by_cases hc : c = d
    · rw [hc, replaceAll_self, List.cons_append, List.head?_cons]
      exact fun h => he (Option.some.inj h)
    · rwa [replaceAll_char hc]

end Replace

/-- A text after the replacements of backslashes and of backticks. -/
def replacedMarks (v : List Char) : List Char :=
  replaceAll ['\x60'] ['\\', '\x60'] (replaceAll ['\\'] ['\\', '\\'] v)

theorem replacedMarks_char {c : Char} (hb : c ≠ '\\') (hm : c ≠ '\x60') (rest : List Char) :
    replacedMarks (c :: rest) = c :: replacedMarks rest := by
  rw [replacedMarks, replaceAll_char hb, replaceAll_char hm]
  rfl

/-- Only backslashes are put in front, so a brace at the front was there before. -/
theorem head?_replacedMarks_ne {v : List Char} (h : v.head? ≠ some '\x7b') :
    (replacedMarks v).head? ≠ some '\x7b' :=
  head?_replaceAll_ne (by decide) (head?_replaceAll_ne (by decide) h)

/-- A text after the three replacements. -/
def replacedThrice (v : List Char) : List Char :=
  replaceAll ['$', '\x7b'] ['\\', '$', '\x7b'] (replacedMarks v)

/-- **Escaping is the three replacements, one after another.** -/
theorem escapeTemplate_eq_replacedThrice (v : List Char) : escapeTemplate v = replacedThrice v := by
  fun_induction escapeTemplate v with
  | case1 => rw [replacedThrice, replacedMarks, replaceAll_nil, replaceAll_nil, replaceAll_nil]
  | case2 rest ih =>
    have hmarks : replacedMarks ('\\' :: rest) = '\\' :: '\\' :: replacedMarks rest := by
      rw [replacedMarks, replaceAll_self, List.cons_append, List.singleton_append,
        replaceAll_char (by decide), replaceAll_char (by decide)]
      rfl
    rw [ih, replacedThrice, replacedThrice, hmarks, replaceAll_char (by decide),
      replaceAll_char (by decide)]
  | case3 rest ih =>
    have hmarks : replacedMarks ('\x60' :: rest) = '\\' :: '\x60' :: replacedMarks rest := by
      rw [replacedMarks, replaceAll_char (by decide), replaceAll_self]
      rfl
    rw [ih, replacedThrice, replacedThrice, hmarks, replaceAll_char (by decide),
      replaceAll_char (by decide)]
  | case4 rest ih =>
    have hword : replaceAll ['$', '\x7b'] ['\\', '$', '\x7b'] ('$' :: (['\x7b'] ++ replacedMarks rest)) =
        ['\\', '$', '\x7b'] ++ replacedThrice rest := replaceAll_word (replacedMarks rest)
    rw [ih, replacedThrice.eq_def ('$' :: _), replacedMarks_char (by decide) (by decide),
      replacedMarks_char (by decide) (by decide)]
    exact hword.symm
  | case5 c rest hb hm hd ih =>
    rw [ih, replacedThrice, replacedThrice, replacedMarks_char hb hm]
    refine (replaceAll_other fun hp => ?_).symm
    obtain ⟨hc, t, ht⟩ := List.cons_prefix_cons.mp hp
    have hbrace : rest.head? ≠ some '\x7b' := by
      intro hhead
      obtain ⟨after, rfl⟩ := List.head?_eq_some_iff.mp hhead
      exact hd after hc.symm rfl
    exact head?_replacedMarks_ne hbrace (ht ▸ rfl)

/-! ### Reading a template literal -/

/-- What a reader of a template literal may meet in its body. -/
inductive TemplateFault where
  /-- A backtick that is not escaped, which ends the literal. -/
  | backtick
  /-- A dollar sign and a brace that are not escaped, which start a substitution. -/
  | substitution
  /-- A backslash with no character after it that it can escape. -/
  | backslash
deriving DecidableEq, Repr

/-- The characters that a backslash escapes. -/
def escapable : List Char :=
  ['\\', '\x60', '$']

/-- The text that the body of a template literal stands for. -/
def templateText : List Char → Except TemplateFault (List Char)
  | [] => .ok []
  | c :: rest =>
      if c = '\\' then
        match rest with
        | [] => .error .backslash
        | d :: after =>
            if d ∈ escapable then (templateText after).map (d :: ·) else .error .backslash
      else if c = '\x60' then .error .backtick
      else if c = '$' ∧ rest.head? = some '\x7b' then .error .substitution
      else (templateText rest).map (c :: ·)

theorem templateText_escape {d : Char} (h : d ∈ escapable) (after : List Char) :
    templateText ('\\' :: d :: after) = (templateText after).map (d :: ·) := by
  rw [templateText, if_pos rfl]
  exact if_pos h

theorem templateText_char {c : Char} {rest : List Char} (hb : c ≠ '\\') (hm : c ≠ '\x60')
    (hd : ¬(c = '$' ∧ rest.head? = some '\x7b')) :
    templateText (c :: rest) = (templateText rest).map (c :: ·) := by
  rw [templateText.eq_def]
  simp only [hb, hm, hd, if_false]

theorem head?_of_escapeTemplate {v : List Char} (h : (escapeTemplate v).head? = some '\x7b') :
    v.head? = some '\x7b' := by
  fun_cases escapeTemplate v with
  | case1 => exact h
  | case2 rest => cases h
  | case3 rest => cases h
  | case4 rest => cases h
  | case5 c rest hb hm hd =>
    rw [escapeTemplate] at h
    · exact h
    · exact hb
    · exact hm
    · exact hd

/-- **Reading an escaped text gives the text back.** -/
theorem templateText_escapeTemplate (v : List Char) : templateText (escapeTemplate v) = .ok v := by
  fun_induction escapeTemplate v with
  | case1 => rfl
  | case2 rest ih => rw [templateText_escape (by decide), ih]; rfl
  | case3 rest ih => rw [templateText_escape (by decide), ih]; rfl
  | case4 rest ih =>
    rw [templateText_escape (by decide), templateText_char (by decide) (by decide) (by simp), ih]
    rfl
  | case5 c rest hb hm hd ih =>
    have hopen : ¬(c = '$' ∧ (escapeTemplate rest).head? = some '\x7b') := by
      rintro ⟨hc, hhead⟩
      obtain ⟨after, rfl⟩ := List.head?_eq_some_iff.mp (head?_of_escapeTemplate hhead)
      exact hd after hc rfl
    rw [templateText_char hb hm hopen, ih]
    rfl

/-! ### Scanning a template literal -/

/-- A text as a template literal. -/
def templateLiteral (v : List Char) : List Char :=
  '\x60' :: (escapeTemplate v ++ ['\x60'])

theorem skipLiteral_templateLiteral (v rest : List Char) :
    skipLiteral (templateLiteral v ++ rest) 0 = .ok (some (templateLiteral v).length) := by
  have hlit : literalRest? (templateLiteral v ++ rest) = some rest := by
    rw [templateLiteral, List.cons_append, literalRest?_cons, List.append_assoc]
    exact congrArg some (quoteRest_escapeTemplate v rest)
  rw [skipLiteral, if_pos (by simp [templateLiteral]), literalEnd?, List.drop_zero, hlit,
    Option.map_some, List.length_append, Nat.add_sub_cancel]

theorem groupEnd?_templateLiteral (v rest : List Char) :
    groupEnd? ('\x7b' :: (templateLiteral v ++ '\x7d' :: rest)) 0
      ('\x7b' :: (templateLiteral v ++ '\x7d' :: rest)).length =
        .ok (some ((templateLiteral v).length + 2)) := by
  have hgroup : groupRest? ('\x7b' :: (templateLiteral v ++ '\x7d' :: rest)) = some rest :=
    groupRest?_braces (inert_template v) rest
  rw [groupEnd?_eq_map, List.drop_zero, hgroup, Option.map_some]
  simp only [List.length_cons, List.length_append]
  congr 2
  omega

/-- **Escaping a text for a template literal is a correct and closed encoding.**  It is three replacements
over the whole text; reading the literal's body meets no backtick, no substitution and no backslash that
is not part of an escape, and gives back the text; and whatever follows, the literal is skipped up to the
backtick after it, and a group of braces around it ends with its brace. -/
theorem template_is_closed_encoding (v : List Char) :
    escapeTemplate v = replacedThrice v ∧ templateText (escapeTemplate v) = .ok v ∧
      ∀ rest : List Char,
        skipLiteral ('\x60' :: (escapeTemplate v ++ '\x60' :: rest)) 0 =
          .ok (some ((escapeTemplate v).length + 2)) ∧
        groupEnd? ('\x7b' :: '\x60' :: (escapeTemplate v ++ '\x60' :: '\x7d' :: rest)) 0
          ('\x7b' :: '\x60' :: (escapeTemplate v ++ '\x60' :: '\x7d' :: rest)).length =
            .ok (some ((escapeTemplate v).length + 4)) := by
  refine ⟨escapeTemplate_eq_replacedThrice v, templateText_escapeTemplate v, fun rest => ⟨?_, ?_⟩⟩
  · have hskip := skipLiteral_templateLiteral v rest
    simpa [templateLiteral] using hskip
  · have hend := groupEnd?_templateLiteral v rest
    simpa [templateLiteral] using hend

end Mdx.Module
