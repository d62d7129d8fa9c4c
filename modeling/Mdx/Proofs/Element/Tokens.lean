import Mdx.Proofs.Element.Tag
import Mdx.Source.Basic

/-!
# Tokens of a piece of markup

The tokens of a text lie end to end (`tokens_tiles`).  Where one ends, the text may be cut in two:
the part before the cut has the tokens before it and no fault (`tokens_take`), and the part after
the cut has the tokens after it, moved to the start (`map_shift_tokens_drop`).  So a run of tokens
is what the piece of text under it is cut into, on its own (`tokens_slice`).

The lexer goes through a text in steps of three kinds: it meets a fault, it takes a tag or comment,
or it passes over some text (`Passes`).  `tokens_induction` is induction along these steps.  The
facts on cut texts are those of a single step: a tag is read the same whatever follows it, and text
that is passed over up to a place before the cut is passed over up to there without the rest.
-/

namespace Mdx.Element

open Mdx.Script (groupRest? groupRest?_append_iff groupRest?_suffix length_lt_of_groupRest?
  exists_append_of_suffix)

/-! ### The steps of the lexer -/

/-- The lexer passes over the start of a text, which is no tag, and goes on after it. -/
inductive Passes : List Char → List Char → Prop
  | bracket {rest : List Char} (h : lexemeAfter rest = .ok none) : Passes ('<' :: rest) rest
  | group {rest after : List Char} (h : groupRest? ('\x7b' :: rest) = some after) :
      Passes ('\x7b' :: rest) after
  | brace {rest : List Char} (h : groupRest? ('\x7b' :: rest) = none) : Passes ('\x7b' :: rest) rest
  | char {c : Char} {rest : List Char} (h₁ : c ≠ '<') (h₂ : c ≠ '\x7b') : Passes (c :: rest) rest

theorem Passes.suffix {s after : List Char} (h : Passes s after) : after <:+ s := by
  cases h with
  | bracket h => exact List.suffix_cons _ _
  | group h => exact groupRest?_suffix h
  | brace h => exact List.suffix_cons _ _
  | char h₁ h₂ => exact List.suffix_cons _ _

theorem Passes.length_lt {s after : List Char} (h : Passes s after) : after.length < s.length := by
  cases h with
  | bracket h => exact Nat.lt_succ_self _
  | group h => exact length_lt_of_groupRest? h
  | brace h => exact Nat.lt_succ_self _
  | char h₁ h₂ => exact Nat.lt_succ_self _

/-- Every text that is not empty starts with a fault, with a tag or comment, or with text. -/
theorem step_cases (c : Char) (rest : List Char) :
    (∃ f, c = '<' ∧ lexemeAfter rest = .error f) ∨
      (∃ l, c = '<' ∧ lexemeAfter rest = .ok (some l)) ∨ ∃ after, Passes (c :: rest) after := by
  by_cases h₁ : c = '<'
  · subst h₁
    cases h : lexemeAfter rest with
    | error f => exact Or.inl ⟨f, rfl, rfl⟩
    | ok o =>
      cases o with
      | none => exact Or.inr (Or.inr ⟨rest, .bracket h⟩)
      | some l => exact Or.inr (Or.inl ⟨l, rfl, rfl⟩)
  by_cases h₂ : c = '\x7b'
  · subst h₂
    cases h : groupRest? ('\x7b' :: rest) with
    | none => exact Or.inr (Or.inr ⟨rest, .brace h⟩)
    | some after => exact Or.inr (Or.inr ⟨after, .group h⟩)
  · exact Or.inr (Or.inr ⟨rest, .char h₁ h₂⟩)

theorem length_rest_lt {rest : List Char} {l : Lexeme} (h : lexemeAfter rest = .ok (some l)) :
    l.rest.length < rest.length :=
  (lexemeAfter_suffix h).length_le

/-- Induction along the steps of the lexer. -/
theorem tokens_induction {motive : List Char → Prop} (nil : motive [])
    (fault : ∀ rest f, lexemeAfter rest = .error f → motive ('<' :: rest))
    (lexeme : ∀ rest l, lexemeAfter rest = .ok (some l) → motive l.rest → motive ('<' :: rest))
    (pass : ∀ s after, Passes s after → motive after → motive s) : ∀ s, motive s := by
  intro s
  induction hn : s.length using Nat.strong_induction_on generalizing s with
  | _ n ih =>
    subst hn
    cases s with
    | nil => exact nil
    | cons c rest =>
      rcases step_cases c rest with ⟨f, rfl, h⟩ | ⟨l, rfl, h⟩ | ⟨after, h⟩
      · exact fault rest f h
      · exact lexeme rest l h (ih _ ((length_rest_lt h).trans (Nat.lt_succ_self _)) _ rfl)
      · exact pass _ after h (ih _ h.length_lt _ rfl)

theorem tokensFrom_nil (total a : Nat) : tokensFrom total a [] = (textToken a total, none) := by
  rw [tokensFrom]

theorem tokensFrom_fault {rest : List Char} {f : Fault} (h : lexemeAfter rest = .error f)
    (total a : Nat) :
    tokensFrom total a ('<' :: rest) = ([], some ⟨f.1, total - f.2.length⟩) := by
  obtain ⟨cause, place⟩ := f
  rw [tokensFrom, if_pos (by decide)]
  split <;> simp_all

theorem tokensFrom_lexeme {rest : List Char} {l : Lexeme} (h : lexemeAfter rest = .ok (some l))
    (total a : Nat) :
    tokensFrom total a ('<' :: rest) =
      (textToken a (total - (rest.length + 1)) ++
        ⟨l.kind, l.name, total - (rest.length + 1), total - l.rest.length⟩ ::
          (tokensFrom total (total - l.rest.length) l.rest).1,
        (tokensFrom total (total - l.rest.length) l.rest).2) := by
  rw [tokensFrom, if_pos (by decide)]
  split <;> simp_all

theorem tokensFrom_pass {s after : List Char} (h : Passes s after) (total a : Nat) :
    tokensFrom total a s = tokensFrom total a after := by
  cases h with
  | bracket h =>
    rw [tokensFrom, if_pos (by decide)]
    split <;> simp_all
  | group h =>
    rw [tokensFrom, if_neg (by decide), if_pos (by decide)]
    split <;> simp_all
  | brace h =>
    rw [tokensFrom, if_neg (by decide), if_pos (by decide)]
    split <;> simp_all
  | char h₁ h₂ => rw [tokensFrom, if_neg (by simpa using h₁), if_neg (by simpa using h₂)]

/-! ### Tokens lie end to end -/

/-- The tokens lie end to end between two offsets, and none of them is empty. -/
inductive Tiles : Nat → List Token → Nat → Prop
  | nil (a : Nat) : Tiles a [] a
  | cons {t : Token} {ts : List Token} {a b : Nat} (hs : t.start = a) (hlt : a < t.stop)
      (h : Tiles t.stop ts b) : Tiles a (t :: ts) b

theorem Tiles.le {a b : Nat} {ts : List Token} (h : Tiles a ts b) : a ≤ b := by
  induction h with
  | nil a => exact Nat.le_refl a
  | cons _ hlt _ ih => exact (Nat.le_of_lt hlt).trans ih

theorem Tiles.eq_of_nil {a b : Nat} (h : Tiles a [] b) : a = b := by
  cases h
  rfl

theorem Tiles.append {a b c : Nat} {xs ys : List Token} (hx : Tiles a xs b) (hy : Tiles b ys c) :
    Tiles a (xs ++ ys) c := by
  induction hx with
  | nil a => exact hy
  | cons hs hlt _ ih => exact .cons hs hlt (ih hy)

theorem Tiles.of_append {a c : Nat} {ys : List Token} :
    ∀ {xs : List Token}, Tiles a (xs ++ ys) c → ∃ b, Tiles a xs b ∧ Tiles b ys c := by
  intro xs
  induction xs generalizing a with
  | nil => intro h; exact ⟨a, .nil a, h⟩
  | cons t xs ih =>
    intro h
    cases h with
    | cons hs hlt h =>
      obtain ⟨b, hx, hy⟩ := ih h
      exact ⟨b, .cons hs hlt hx, hy⟩

theorem Tiles.bounds {a b : Nat} {ts : List Token} (h : Tiles a ts b) {t : Token} (ht : t ∈ ts) :
    a ≤ t.start ∧ t.start < t.stop ∧ t.stop ≤ b := by
  induction h with
  | nil a => cases ht
  | cons hs hlt h ih =>
    rcases List.mem_cons.mp ht with rfl | ht
    · exact ⟨Nat.le_of_eq hs.symm, by omega, h.le⟩
    · obtain ⟨h₁, h₂, h₃⟩ := ih ht
      exact ⟨by omega, h₂, h₃⟩

theorem Tiles.exists_stop {a b : Nat} {ts : List Token} (h : Tiles a ts b) (hne : ts ≠ []) :
    ∃ t ∈ ts, t.stop = b := by
  induction h with
  | nil a => exact absurd rfl hne
  | @cons t ts a b hs hlt h ih =>
    cases ts with
    | nil =>
      cases h
      exact ⟨t, List.mem_cons_self, rfl⟩
    | cons t' ts =>
      obtain ⟨t'', ht, hb⟩ := ih (List.cons_ne_nil _ _)
      exact ⟨t'', List.mem_cons_of_mem t ht, hb⟩

/-- Tokens between the same two offsets at the start of one list are the same tokens. -/
theorem Tiles.eq_of_append_eq {a b : Nat} {xs xs' ys ys' : List Token} (h : Tiles a xs b)
    (h' : Tiles a xs' b) (heq : xs ++ ys = xs' ++ ys') : xs = xs' := by
  induction h generalizing xs' with
  | nil a =>
    cases h' with
    | nil => rfl
    | cons _ hlt h' => exact absurd h'.le (by omega)
  | @cons t ts a b hs hlt h ih =>
    cases h' with
    | nil => exact absurd h.le (by omega)
    | cons hs' hlt' h' =>
      obtain ⟨rfl, htail⟩ := List.cons.inj heq
      rw [ih h' htail]

theorem textToken_tiles {a b : Nat} (h : a ≤ b) : Tiles a (textToken a b) b := by
  rw [textToken]
  split
  · rename_i hlt
    exact .cons rfl hlt (.nil b)
  · obtain rfl : a = b := by omega
    exact .nil a

theorem tokensFrom_tiles (total : Nat) : ∀ (s : List Char) (a : Nat), a + s.length ≤ total →
    ∃ b, Tiles a (tokensFrom total a s).1 b ∧ b ≤ total ∧
      ((tokensFrom total a s).2 = none → b = total) := by
  intro s
  induction s using tokens_induction with
  | nil =>
    intro a ha
    rw [tokensFrom_nil]
    exact ⟨total, textToken_tiles (by simpa using ha), Nat.le_refl _, fun _ => rfl⟩
  | fault rest f h =>
    intro a ha
    rw [tokensFrom_fault h]
    exact ⟨a, .nil a, by omega, fun hf => by cases hf⟩
  | lexeme rest l h ih =>
    intro a ha
    have hlt := length_rest_lt h
    rw [List.length_cons] at ha
    obtain ⟨b, hb, hle, hnone⟩ := ih (total - l.rest.length) (by omega)
    rw [tokensFrom_lexeme h]
    refine ⟨b, (textToken_tiles (by omega)).append ?_, hle, hnone⟩
    exact .cons rfl (by show total - (rest.length + 1) < total - l.rest.length; omega) hb
  | pass s after h ih =>
    intro a ha
    have := h.length_lt
    rw [tokensFrom_pass h]
    exact ih a (by omega)

/-- **The tokens of a text lie end to end from its start**, and reach its end if there is no
fault. -/
theorem tokens_tiles (s : List Char) :
    ∃ b, Tiles 0 (tokens s).1 b ∧ b ≤ s.length ∧ ((tokens s).2 = none → b = s.length) :=
  tokensFrom_tiles s.length s 0 (by omega)

theorem le_stop_of_mem (total : Nat) : ∀ (s : List Char) (a : Nat), s.length ≤ total →
    ∀ t ∈ (tokensFrom total a s).1, total ≤ t.stop + s.length := by
  intro s
  induction s using tokens_induction with
  | nil =>
    intro a _ t ht
    rw [tokensFrom_nil, textToken] at ht
    split at ht
    · obtain rfl := List.mem_singleton.mp ht
      exact Nat.le_add_right _ _
    · cases ht
  | fault rest f h =>
    intro a _ t ht
    rw [tokensFrom_fault h] at ht
    cases ht
  | lexeme rest l h ih =>
    intro a hle t ht
    have hlt := length_rest_lt h
    rw [List.length_cons] at hle
    rw [tokensFrom_lexeme h] at ht
    rcases List.mem_append.mp ht with ht | ht
    · rw [textToken] at ht
      split at ht
      · obtain rfl := List.mem_singleton.mp ht
        show total ≤ total - (rest.length + 1) + (rest.length + 1)
        omega
      · cases ht
    · rcases List.mem_cons.mp ht with rfl | ht
      · show total ≤ total - l.rest.length + (rest.length + 1)
        omega
      · have := ih _ (by omega) t ht
        rw [List.length_cons]
        omega
  | pass s after h ih =>
    intro a hle t ht
    have := h.length_lt
    rw [tokensFrom_pass h] at ht
    have := ih a (by omega) t ht
    omega

/-! ### Tokens of a text that stands elsewhere -/

/-- The token, `d` characters further on. -/
def Token.shift (d : Nat) (t : Token) : Token :=
  { t with start := t.start + d, stop := t.stop + d }

/-- The fault, `d` characters further on. -/
def LexicalFault.shift (d : Nat) (f : LexicalFault) : LexicalFault :=
  { f with offset := f.offset + d }

theorem textToken_shift (d a b : Nat) :
    textToken (a + d) (b + d) = (textToken a b).map (Token.shift d) := by
  rw [textToken, textToken]
  by_cases h : a < b
  · rw [if_pos h, if_pos (by omega)]
    rfl
  · rw [if_neg h, if_neg (by omega)]
    rfl

theorem tokensFrom_shift (d : Nat) : ∀ (s : List Char) (total a : Nat), s.length ≤ total →
    tokensFrom (total + d) (a + d) s =
      ((tokensFrom total a s).1.map (Token.shift d),
        (tokensFrom total a s).2.map (LexicalFault.shift d)) := by
  intro s
  induction s using tokens_induction with
  | nil =>
    intro total a _
    rw [tokensFrom_nil, tokensFrom_nil, textToken_shift]
    rfl
  | fault rest f h =>
    intro total a hle
    have hf := (lexemeAfter_error_suffix h).length_le
    rw [List.length_cons] at hle hf
    rw [tokensFrom_fault h, tokensFrom_fault h,
      show total + d - f.2.length = total - f.2.length + d by omega]
    rfl
  | lexeme rest l h ih =>
    intro total a hle
    have hlt := length_rest_lt h
    rw [List.length_cons] at hle
    rw [tokensFrom_lexeme h, tokensFrom_lexeme h,
      show total + d - (rest.length + 1) = total - (rest.length + 1) + d by omega,
      show total + d - l.rest.length = total - l.rest.length + d by omega,
      ih total (total - l.rest.length) (by omega), textToken_shift, List.map_append, List.map_cons]
    rfl
  | pass s after h ih =>
    intro total a hle
    have := h.length_lt
    rw [tokensFrom_pass h, tokensFrom_pass h]
    exact ih total a (by omega)

/-! ### Tokens of a cut text -/

/-- Text that is passed over up to a place before the cut is passed over without the rest. -/
theorem Passes.of_append {s u after : List Char} (hs : s ≠ []) (h : Passes (s ++ u) after)
    (hle : u.length ≤ after.length) : ∃ y, after = y ++ u ∧ Passes s y := by
  obtain ⟨y, rfl⟩ := exists_append_of_suffix h.suffix hle
  refine ⟨y, rfl, ?_⟩
  cases s with
  | nil => exact absurd rfl hs
  | cons c rest =>
    rw [List.cons_append] at h
    generalize ht : rest ++ u = t at h
    generalize hx : y ++ u = x at h
    cases h with
    | bracket h =>
      obtain rfl : y = rest := List.append_cancel_right (hx.trans ht.symm)
      exact .bracket (lexemeAfter_eq_none_of_append (ht ▸ h))
    | group h =>
      refine .group ((groupRest?_append_iff (u := u)).mp ?_)
      rw [List.cons_append, ht, hx]
      exact h
    | brace h =>
      obtain rfl : y = rest := List.append_cancel_right (hx.trans ht.symm)
      refine .brace ?_
      -- a group that ends before the cut would be one of the whole text
      cases hg : groupRest? ('\x7b' :: y) with
      | none => rfl
      | some after =>
        have := (groupRest?_append_iff (u := u)).mpr hg
        rw [List.cons_append, ht, h] at this
        cases this
    | char h₁ h₂ =>
      obtain rfl : y = rest := List.append_cancel_right (hx.trans ht.symm)
      exact .char h₁ h₂

/-- Where a token ends before a text, the pending text is a token of its own. -/
theorem tokensFrom_of_stop {u : List Char} {k a : Nat}
    (h : ∃ t ∈ (tokensFrom (k + u.length) a u).1, t.stop = k) :
    tokensFrom (k + u.length) a u =
      (textToken a k ++ (tokensFrom (k + u.length) k u).1, (tokensFrom (k + u.length) k u).2) := by
  have hkk : textToken k k = [] := if_neg (Nat.lt_irrefl k)
  obtain ⟨t, ht, hk⟩ := h
  cases u with
  | nil => rw [tokensFrom_nil, tokensFrom_nil, List.length_nil, Nat.add_zero, hkk, List.append_nil]
  | cons c rest =>
    rcases step_cases c rest with ⟨f, rfl, h⟩ | ⟨l, rfl, h⟩ | ⟨after, h⟩
    · rw [tokensFrom_fault h] at ht
      cases ht
    · rw [tokensFrom_lexeme h, tokensFrom_lexeme h, List.length_cons, Nat.add_sub_cancel, hkk,
        List.nil_append]
    · -- all tokens end after what is passed over
      have hlt := h.length_lt
      rw [tokensFrom_pass h] at ht
      have := le_stop_of_mem _ after a (by omega) t ht
      omega

/-- A token that ends after a tag's bracket ends with the tag, or is one of the text after it. -/
theorem stop_cases {rest : List Char} {l : Lexeme} (h : lexemeAfter rest = .ok (some l))
    {total a : Nat} (hle : rest.length + 1 ≤ total) {t : Token}
    (ht : t ∈ (tokensFrom total a ('<' :: rest)).1) (hk : total - (rest.length + 1) < t.stop) :
    t.stop = total - l.rest.length ∨
      (total - l.rest.length < t.stop ∧
        t ∈ (tokensFrom total (total - l.rest.length) l.rest).1) := by
  rw [tokensFrom_lexeme h] at ht
  rcases List.mem_append.mp ht with ht | ht
  · rw [textToken] at ht
    split at ht
    · obtain rfl := List.mem_singleton.mp ht
      exact absurd hk (Nat.lt_irrefl _)
    · cases ht
  · rcases List.mem_cons.mp ht with rfl | ht
    · exact Or.inl rfl
    · have hlt := length_rest_lt h
      obtain ⟨b, hb, -, -⟩ := tokensFrom_tiles total l.rest (total - l.rest.length) (by omega)
      obtain ⟨h₁, h₂, -⟩ := hb.bounds ht
      exact Or.inr ⟨by omega, ht⟩

theorem lexemeAfter_of_append {rest u : List Char} {l : Lexeme}
    (h : lexemeAfter (rest ++ u) = .ok (some l)) (hle : u.length ≤ l.rest.length) :
    ∃ r, l.rest = r ++ u ∧ lexemeAfter rest = .ok (some ⟨l.kind, l.name, r⟩) := by
  obtain ⟨kind, name, after⟩ := l
  obtain ⟨x, hx⟩ := lexemeAfter_suffix h
  have hsuf : after <:+ rest ++ u := ⟨x ++ ['>'], by rw [← hx, List.append_assoc]; rfl⟩
  obtain ⟨r, rfl⟩ := exists_append_of_suffix hsuf hle
  obtain rfl : x ++ '>' :: r = rest := by
    refine List.append_cancel_right (?_ : x ++ '>' :: r ++ u = rest ++ u)
    rw [← hx, List.append_assoc]
    rfl
  refine ⟨r, rfl, ?_⟩
  rw [List.append_assoc, List.cons_append] at h
  exact lexemeAfter_replace h r

/-- **Where a token ends, the text may be cut.**  The tokens of the text are those of the part
before the cut, which has no fault, and those of the part after it. -/
theorem tokensFrom_cut (u : List Char) (k : Nat) : ∀ (s : List Char) (a : Nat), a + s.length ≤ k →
    (∃ t ∈ (tokensFrom (k + u.length) a (s ++ u)).1, t.stop = k) →
    (tokensFrom k a s).2 = none ∧
      tokensFrom (k + u.length) a (s ++ u) =
        ((tokensFrom k a s).1 ++ (tokensFrom (k + u.length) k u).1,
          (tokensFrom (k + u.length) k u).2) := by
  intro s
  induction hn : s.length using Nat.strong_induction_on generalizing s with
  | _ n ih =>
    subst hn
    intro a ha hstop
    cases s with
    | nil =>
      rw [tokensFrom_nil]
      exact ⟨rfl, tokensFrom_of_stop hstop⟩
    | cons c rest =>
      rw [List.length_cons] at ha
      obtain ⟨t, ht, hk⟩ := hstop
      rw [List.cons_append] at ht ⊢
      rcases step_cases c (rest ++ u) with ⟨f, rfl, h⟩ | ⟨l, rfl, h⟩ | ⟨after, h⟩
      · rw [tokensFrom_fault h] at ht
        cases ht
      · have hlt := length_rest_lt h
        have hlen : (rest ++ u).length = rest.length + u.length := List.length_append
        have hcases := stop_cases h (by omega) ht (by omega)
        have hle : u.length ≤ l.rest.length := by
          rcases hcases with hs | ⟨hs, -⟩ <;> omega
        obtain ⟨r, hr, h'⟩ := lexemeAfter_of_append h hle
        have hrl : l.rest.length = r.length + u.length := by rw [hr, List.length_append]
        -- the text after the tag is cut at the same place
        have key : (tokensFrom k (k - r.length) r).2 = none ∧
            tokensFrom (k + u.length) (k - r.length) (r ++ u) =
              ((tokensFrom k (k - r.length) r).1 ++ (tokensFrom (k + u.length) k u).1,
                (tokensFrom (k + u.length) k u).2) := by
          rcases hcases with hs | ⟨-, hs⟩
          · obtain rfl : r = [] := List.eq_nil_of_length_eq_zero (by omega)
            rw [tokensFrom_nil, List.length_nil, Nat.sub_zero, textToken, if_neg (Nat.lt_irrefl k)]
            exact ⟨rfl, rfl⟩
          · rw [hr, List.length_append, Nat.add_sub_add_right] at hs
            exact ih r.length (by rw [List.length_cons]; omega) r rfl _ (by omega) ⟨t, hs, hk⟩
        rw [tokensFrom_lexeme h, tokensFrom_lexeme h', hr, hlen, List.length_append,
          Nat.add_sub_add_right, key.2, show k + u.length - (rest.length + u.length + 1)
            = k - (rest.length + 1) by omega]
        exact ⟨key.1, by simp⟩
      · rw [tokensFrom_pass h] at ht
        have hlt := h.length_lt
        simp only [List.length_cons, List.length_append] at hlt
        have hle := le_stop_of_mem _ after a (by omega) t ht
        obtain ⟨y, rfl, hy⟩ := h.of_append (s := c :: rest) (List.cons_ne_nil c rest) (by omega)
        rw [tokensFrom_pass h, tokensFrom_pass hy]
        have := hy.length_lt
        rw [List.length_cons] at this
        exact ih y.length this y rfl a (by omega) ⟨t, ht, hk⟩

theorem tokens_append {s u : List Char}
    (h : s = [] ∨ ∃ t ∈ (tokens (s ++ u)).1, t.stop = s.length) :
    (tokens s).2 = none ∧
      tokens (s ++ u) =
        ((tokens s).1 ++ (tokens u).1.map (Token.shift s.length),
          (tokens u).2.map (LexicalFault.shift s.length)) := by
  rcases h with rfl | hstop
  · have hnil : tokens [] = ([], none) := tokensFrom_nil 0 0
    rw [hnil]
    refine ⟨rfl, Prod.ext (List.map_id _).symm ?_⟩
    show (tokens u).2 = (tokens u).2.map (LexicalFault.shift 0)
    cases (tokens u).2 <;> rfl
  · have hshift := tokensFrom_shift s.length u u.length 0 (Nat.le_refl _)
    rw [Nat.zero_add, Nat.add_comm] at hshift
    have hlen : tokens (s ++ u) = tokensFrom (s.length + u.length) 0 (s ++ u) := by
      rw [tokens, List.length_append]
    rw [hlen] at hstop ⊢
    obtain ⟨hnone, heq⟩ := tokensFrom_cut u s.length s 0 (by omega) hstop
    rw [heq, hshift]
    exact ⟨hnone, rfl⟩

theorem tokens_cut {s u : List Char} {xs ys : List Token} (h : (tokens (s ++ u)).1 = xs ++ ys)
    (hx : Tiles 0 xs s.length) :
    tokens s = (xs, none) ∧ (tokens u).1.map (Token.shift s.length) = ys ∧
      (tokens u).2.map (LexicalFault.shift s.length) = (tokens (s ++ u)).2 := by
  have hstop : s = [] ∨ ∃ t ∈ (tokens (s ++ u)).1, t.stop = s.length := by
    by_cases hne : xs = []
    · subst hne
      exact Or.inl (List.eq_nil_of_length_eq_zero hx.eq_of_nil.symm)
    · obtain ⟨t, ht, hk⟩ := hx.exists_stop hne
      exact Or.inr ⟨t, h ▸ List.mem_append_left ys ht, hk⟩
  obtain ⟨hnone, heq⟩ := tokens_append hstop
  rw [heq] at h ⊢
  obtain ⟨b, hb, -, hend⟩ := tokens_tiles s
  rw [hend hnone] at hb
  have hxs : (tokens s).1 = xs := hb.eq_of_append_eq hx h
  refine ⟨Prod.ext hxs hnone, ?_, rfl⟩
  rw [hxs] at h
  exact List.append_cancel_left h

theorem length_take_of_tiles {src : List Char} {xs ys : List Token} {e : Nat}
    (h : (tokens src).1 = xs ++ ys) (hx : Tiles 0 xs e) : (src.take e).length = e := by
  have hle : e ≤ src.length := by
    by_cases hne : xs = []
    · subst hne
      exact hx.eq_of_nil ▸ Nat.zero_le _
    · obtain ⟨t, ht, hk⟩ := hx.exists_stop hne
      obtain ⟨b, hb, hle, -⟩ := tokens_tiles src
      have := (hb.bounds (h ▸ List.mem_append_left ys ht)).2.2
      omega
  rw [List.length_take, Nat.min_eq_left hle]

/-- **The text up to the end of a token has the tokens up to there**, and no fault. -/
theorem tokens_take {src : List Char} {xs ys : List Token} {e : Nat}
    (h : (tokens src).1 = xs ++ ys) (hx : Tiles 0 xs e) : tokens (src.take e) = (xs, none) := by
  have hlen := length_take_of_tiles h hx
  rw [← List.take_append_drop e src] at h
  exact (tokens_cut h (hlen.symm ▸ hx)).1

/-- **The text from the end of a token on has the tokens from there on**, moved to its start. -/
theorem map_shift_tokens_drop {src : List Char} {xs ys : List Token} {e : Nat}
    (h : (tokens src).1 = xs ++ ys) (hx : Tiles 0 xs e) :
    (tokens (src.drop e)).1.map (Token.shift e) = ys ∧
      (tokens (src.drop e)).2.map (LexicalFault.shift e) = (tokens src).2 := by
  have hlen := length_take_of_tiles h hx
  rw [← List.take_append_drop e src] at h
  have hcut := (tokens_cut h (hlen.symm ▸ hx)).2
  rwa [hlen, List.take_append_drop] at hcut

/-- **A run of tokens is what its piece of the text is cut into, on its own.** -/
theorem tokens_slice {src : List Char} {xs ys zs : List Token} {b e : Nat}
    (h : (tokens src).1 = xs ++ (ys ++ zs)) (hx : Tiles 0 xs b) (hy : Tiles b ys e) :
    (tokens (slice src b e)).1.map (Token.shift b) = ys ∧ (tokens (slice src b e)).2 = none := by
  have htake : tokens (src.take e) = (xs ++ ys, none) :=
    tokens_take (h.trans (List.append_assoc xs ys zs).symm) (hx.append hy)
  have hslice : slice src b e = (src.take e).drop b := List.drop_take.symm
  obtain ⟨h₁, h₂⟩ := map_shift_tokens_drop (congrArg Prod.fst htake) hx
  rw [htake] at h₂
  rw [hslice]
  exact ⟨h₁, Option.map_eq_none_iff.mp h₂⟩

end Mdx.Element
