import Mdx.Proofs.Element.Span

/-!
# Tags without a partner

A text that is a single opening or closing tag starts no element, whatever plain text follows it
(`spanOf_eq_absent`), and is an error as a piece of markup (`parseChildren_eq_error`).
-/

namespace Mdx.Element

/-! ### Texts with a single token -/

theorem tokensFrom_append {pre : List Char} (hangle : '<' ∉ pre) (hbrace : '\x7b' ∉ pre) (total a : Nat)
    (s : List Char) : tokensFrom total a (pre ++ s) = tokensFrom total a s := by
  induction pre with
  | nil => rfl
  | cons c pre ih =>
    rw [List.mem_cons, not_or] at hangle hbrace
    rw [List.cons_append, tokensFrom_pass (.char (Ne.symm hangle.1) (Ne.symm hbrace.1)),
      ih hangle.2 hbrace.2]

theorem tokensFrom_plain {s : List Char} (hangle : '<' ∉ s) (hbrace : '\x7b' ∉ s) (total a : Nat) :
    tokensFrom total a s = (textToken a total, none) := by
  have hpass := tokensFrom_append hangle hbrace total a []
  rwa [List.append_nil, tokensFrom_nil] at hpass

theorem kind_of_head_tokensFrom {total : Nat} {t : Token} : ∀ (s : List Char) (a : Nat),
    a + s.length < total → (tokensFrom total a s).1.head? = some t → t.kind = .text := by
  have htext (a b : Nat) (hab : a < b) (ts : List Token) :
      (textToken a b ++ ts).head? = some t → t.kind = .text := by
    rw [textToken, if_pos hab]
    rintro ⟨⟩
    rfl
  intro s
  induction s using tokens_induction with
  | nil =>
    intro a ha ht
    rw [tokensFrom_nil, ← List.append_nil (textToken a total)] at ht
    exact htext a total ha [] ht
  | fault rest f h =>
    intro a _ ht
    rw [tokensFrom_fault h] at ht
    cases ht
  | lexeme rest l h ih =>
    intro a ha ht
    rw [tokensFrom_lexeme h] at ht
    rw [List.length_cons] at ha
    exact htext a _ (by omega) _ ht
  | pass s after h ih =>
    intro a ha ht
    have := h.length_lt
    rw [tokensFrom_pass h] at ht
    exact ih a (by omega) ht

theorem exists_lexeme_of_tokens {s : List Char} {t : Token} (h : tokens s = ([t], none))
    (ht : t.kind ≠ .text) : ∃ w, s = '<' :: w ∧ lexemeAfter w = .ok (some ⟨t.kind, t.name, []⟩) := by
  cases s with
  | nil =>
    rw [tokens, tokensFrom_nil] at h
    cases h
  | cons c rest =>
    rcases step_cases c rest with ⟨f, rfl, hf⟩ | ⟨l, rfl, hl⟩ | ⟨after, hpass⟩
    · rw [tokens, tokensFrom_fault hf] at h
      cases h
    · obtain ⟨b, htiles, -, hend⟩ := tokens_tiles ('<' :: rest)
      have hb := hend (congrArg Prod.snd h)
      have hlt := length_rest_lt hl
      rw [h] at htiles
      rw [tokens, tokensFrom_lexeme hl, List.length_cons, Nat.sub_self] at h
      obtain ⟨rfl, hrest⟩ := List.cons.inj (congrArg Prod.fst h)
      -- the token reaches the end of the text, so nothing follows the tag
      cases htiles with
      | cons hs hlt' htail =>
        have hstop := htail.eq_of_nil
        rw [hb, List.length_cons] at hstop
        have hnil : l.rest = [] := List.eq_nil_of_length_eq_zero (by dsimp only at hstop; omega)
        exact ⟨rest, rfl, by rw [hl, ← hnil]⟩
    · rw [tokens, tokensFrom_pass hpass] at h
      have := hpass.length_lt
      have hhead : (tokensFrom (c :: rest).length 0 after).1.head? = some t := by
        rw [h]
        rfl
      exact absurd (kind_of_head_tokensFrom after 0 (by omega) hhead) ht

section Unmatched

variable {w : List Char} {kind : TokenKind} {name : String}
  (hw : lexemeAfter w = .ok (some ⟨kind, name, []⟩))

include hw

theorem tokens_tag_append {u : List Char} (hangle : '<' ∉ u) (hbrace : '\x7b' ∉ u) :
    tokens ('<' :: (w ++ u)) =
      (⟨kind, name, 0, w.length + 1⟩ :: textToken (w.length + 1) (w.length + 1 + u.length), none) := by
  obtain ⟨x, rfl⟩ := lexemeAfter_suffix hw
  have hu : lexemeAfter (x ++ ['>'] ++ u) = .ok (some ⟨kind, name, u⟩) := by
    rw [List.append_assoc]
    exact lexemeAfter_replace hw u
  rw [tokens, tokensFrom_lexeme hu, tokensFrom_plain hangle hbrace, List.length_cons, Nat.sub_self]
  have hlen : (x ++ ['>'] ++ u).length + 1 = (x ++ ['>']).length + 1 + u.length := by
    rw [List.length_append]
    omega
  rw [hlen, Nat.add_sub_cancel]
  rfl

/-- **An unmatched tag starts no element.** -/
theorem spanOf_eq_absent (hkind : kind = .openTag ∨ kind = .closeTag) {u : List Char}
    (hangle : '<' ∉ u) (hbrace : '\x7b' ∉ u) : spanOf ('<' :: (w ++ u)) = .absent := by
  have htext (a b : Nat) : scanTags [name] (textToken a b) = .unclosed := by
    rw [textToken]
    split <;> rfl
  rw [spanOf, tokens_tag_append hw hangle hbrace]
  rcases hkind with rfl | rfl
  · simp only [scanFirst, bne_self_eq_false, Bool.false_eq_true, if_false, htext]
  · rfl

/-- **An unmatched tag is an error.** -/
theorem parseChildren_eq_error (hkind : kind = .openTag ∨ kind = .closeTag) (place : Placement) :
    parseChildren ('<' :: w) place =
      .error (place.error
        (if kind = .openTag then .unterminatedElement name else .strayClosingTag name) 0 (w.length + 1)) := by
  have htokens : tokens ('<' :: w) = ([⟨kind, name, 0, w.length + 1⟩], none) := by
    have happend := tokens_tag_append hw (u := []) List.not_mem_nil List.not_mem_nil
    rwa [List.append_nil, List.length_nil, Nat.add_zero, textToken, if_neg (Nat.lt_irrefl _)] at happend
  rw [parseChildren, parseFragment, htokens]
  rcases hkind with rfl | rfl
  · rfl
  · rfl

end Unmatched

end Mdx.Element
