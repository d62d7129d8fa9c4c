import Mathlib.Data.List.Chain
import Mdx.Proofs.Element.Piece
import Mdx.Proofs.Element.Reparse
import Mdx.Proofs.Element.Spelling

/-!
# Lexing loses nothing

The pieces of a text under its tokens, one after another, are the text (`Tiles.flatMap_piece`), no two
texts stand side by side (`isChain_tokensFrom`), and each piece looks as the kind and the name of its
token say (`writes_of_mem`).  If there is a fault, all this holds of the tokens before it, and the
fault lies after them (`exists_tiles_of_fault`).

Lexing may also be done in parts: at the start of any token a text falls into two, each with its own
share of the tokens (`exists_tiles_of_boundary`, with the facts on cut texts), so the piece under one
token has that token and no other (`tokens_piece`).
-/

namespace Mdx.Element

variable {src : List Char}

/-! ### Pieces -/

/-- The piece of a text under a token. -/
def Token.piece (src : List Char) (t : Token) : List Char :=
  slice src t.start t.stop

/-- **The pieces of tokens that lie end to end are the text between their ends.** -/
theorem Tiles.flatMap_piece {a b : Nat} {ts : List Token} (h : Tiles a ts b) :
    ts.flatMap (Token.piece src) = slice src a b := by
  induction h with
  | nil a =>
    rw [slice, Nat.sub_self, List.take_zero]
    rfl
  | @cons t ts a b hs hlt h ih =>
    subst hs
    rw [List.flatMap_cons, ih]
    exact slice_append_slice (Nat.le_of_lt hlt) h.le

/-! ### What the pieces look like -/

theorem writes_of_mem_textToken {a b : Nat} {t : Token} (ht : t ∈ textToken a b) (piece : List Char) :
    t.kind.Writes t.name piece := by
  rw [textToken] at ht
  split at ht
  · obtain rfl := List.mem_singleton.mp ht
    exact rfl
  · cases ht

/-- **Every piece looks as its token says**, for the tokens of an end of the text. -/
theorem writes_of_mem : ∀ (s : List Char) (a : Nat), s <:+ src →
    ∀ t ∈ (tokensFrom src.length a s).1, t.kind.Writes t.name (t.piece src) := by
  intro s
  induction s using tokens_induction with
  | nil =>
    intro a _ t ht
    rw [tokensFrom_nil] at ht
    exact writes_of_mem_textToken ht _
  | fault rest f h =>
    intro a _ t ht
    rw [tokensFrom_fault h] at ht
    cases ht
  | lexeme rest l h ih =>
    intro a hs t ht
    obtain ⟨p, hp⟩ := hs
    obtain ⟨y, hy⟩ := lexemeAfter_suffix h
    have hrest : rest = (y ++ ['>']) ++ l.rest := by
      rw [← hy, List.append_assoc]
      rfl
    rw [tokensFrom_lexeme h] at ht
    rcases List.mem_append.mp ht with ht | ht
    · exact writes_of_mem_textToken ht _
    rcases List.mem_cons.mp ht with rfl | ht
    · -- the piece under the tag is its bracket and what has been read after it
      have hpiece : slice src (src.length - (rest.length + 1)) (src.length - l.rest.length) =
          '<' :: (y ++ ['>']) := by
        have hlen : rest.length + 1 = ('<' :: (y ++ ['>'])).length + l.rest.length := by
          rw [hrest, List.length_append, List.length_cons]
          omega
        rw [hlen]
        refine slice_between (p := p) ?_
        rw [← hp, hrest]
        rfl
      show l.kind.Writes l.name (slice src _ _)
      rw [hpiece]
      refine writes_of_lexemeAfter (r := l.rest) ?_
      rw [← hrest]
      exact h
    · refine ih _ ?_ t ht
      exact ⟨p ++ '<' :: (y ++ ['>']), by rw [← hp, hrest]; simp⟩
  | pass s after h ih =>
    intro a hs t ht
    rw [tokensFrom_pass h] at ht
    exact ih a (h.suffix.trans hs) t ht

/-! ### Texts apart -/

/-- Not both tokens are texts. -/
def Token.Apart (t u : Token) : Prop :=
  ¬(t.kind = .text ∧ u.kind = .text)

/-- **No two texts stand side by side.** -/
theorem isChain_tokensFrom (total : Nat) : ∀ (s : List Char) (a : Nat),
    (tokensFrom total a s).1.IsChain Token.Apart := by
  have htext : ∀ a b : Nat, (textToken a b).IsChain Token.Apart := by
    intro a b
    rw [textToken]
    split
    · exact .singleton _
    · exact .nil
  intro s
  induction s using tokens_induction with
  | nil =>
    intro a
    rw [tokensFrom_nil]
    exact htext a total
  | fault rest f h =>
    intro a
    rw [tokensFrom_fault h]
    exact .nil
  | lexeme rest l h ih =>
    intro a
    have hl : l.kind ≠ .text := kind_ne_text h
    rw [tokensFrom_lexeme h]
    refine (htext _ _).append ?_ ?_
    · exact (ih _).cons fun u _ hboth => hl hboth.1
    · -- the first token after the text is the tag
      intro t _ u hu hboth
      obtain rfl := Option.mem_some_iff.mp hu
      exact hl hboth.2
  | pass s after h ih =>
    intro a
    rw [tokensFrom_pass h]
    exact ih a

/-! ### Where a fault lies -/

theorem exists_tiles_of_fault (total : Nat) {f : LexicalFault} : ∀ (s : List Char) (a : Nat),
    a + s.length ≤ total → (tokensFrom total a s).2 = some f →
      ∃ k : Nat, Tiles a (tokensFrom total a s).1 k ∧ k ≤ f.offset ∧ f.offset ≤ total := by
  intro s
  induction s using tokens_induction with
  | nil =>
    intro a _ hf
    rw [tokensFrom_nil] at hf
    cases hf
  | fault rest e h =>
    intro a ha hf
    have hle := (lexemeAfter_error_suffix h).length_le
    rw [List.length_cons] at ha hle
    rw [tokensFrom_fault h] at hf ⊢
    obtain rfl := Option.some.inj hf
    refine ⟨a, .nil a, ?_, Nat.sub_le _ _⟩
    show a ≤ total - e.2.length
    omega
  | lexeme rest l h ih =>
    intro a ha hf
    have hlt := length_rest_lt h
    rw [List.length_cons] at ha
    rw [tokensFrom_lexeme h] at hf ⊢
    obtain ⟨k, hk, hle, htotal⟩ := ih (total - l.rest.length) (by omega) hf
    refine ⟨k, (textToken_tiles (by omega)).append (.cons rfl ?_ hk), hle, htotal⟩
    show total - (rest.length + 1) < total - l.rest.length
    omega
  | pass s after h ih =>
    intro a ha hf
    have := h.length_lt
    rw [tokensFrom_pass h] at hf ⊢
    exact ih a (by omega) hf

/-- The tokens of a text without a fault lie end to end from its start to its end. -/
theorem tokens_tiles_of_none (h : (tokens src).2 = none) : Tiles 0 (tokens src).1 src.length := by
  obtain ⟨b, hb, -, hend⟩ := tokens_tiles src
  rwa [hend h] at hb

/-- **Lexing loses nothing, and tokens look as they say.**

* Every piece under a token is written as the kind and the name of the token say, and no two texts
  stand side by side.
* Without a fault, the tokens lie end to end from the start of the text to its end, and their pieces
  make up the text.
* With a fault, the tokens before it lie end to end from the start of the text, and the fault lies in
  the text after them. -/
theorem tokens_describe_text (src : List Char) :
    (∀ t ∈ (tokens src).1, t.kind.Writes t.name (t.piece src)) ∧
      (tokens src).1.IsChain Token.Apart ∧
      ((tokens src).2 = none →
        Tiles 0 (tokens src).1 src.length ∧ (tokens src).1.flatMap (Token.piece src) = src) ∧
      ∀ f : LexicalFault, (tokens src).2 = some f →
        ∃ k : Nat, Tiles 0 (tokens src).1 k ∧ k ≤ f.offset ∧ f.offset ≤ src.length := by
  refine ⟨writes_of_mem src 0 List.suffix_rfl, isChain_tokensFrom _ src 0, fun h => ?_, fun f hf => ?_⟩
  · have htiles := tokens_tiles_of_none h
    refine ⟨htiles, ?_⟩
    rw [htiles.flatMap_piece, slice_whole]
  · exact exists_tiles_of_fault src.length src 0 (by omega) hf

/-- Tags whose values end with a slash, a group that hides a tag, and a comment. -/
def fourTags : List Char :=
  "a<b c=d/><e f=g/ >\x7b<h>\x7d</ e ><!--i-->".toList

/-- A tag, a text and a tag whose value has no end. -/
def openValue : List Char :=
  "<a/>x<b c='y".toList

theorem tokens_describe_text_slashes :
    ((tokens fourTags).1.map fun t => (t.kind, t.name, t.start, t.stop)) =
        [(.text, "", 0, 1), (.selfClosing, "b", 1, 9), (.openTag, "e", 9, 18), (.text, "", 18, 23),
         (.closeTag, "e", 23, 29), (.comment, "", 29, 37)] ∧
      (tokens fourTags).2 = none ∧
      (tokens fourTags).1.flatMap (Token.piece fourTags) = fourTags ∧
      TokenKind.selfClosing.Writes "b" (slice fourTags 1 9) ∧
      (tokens openValue).2 = some ⟨.unterminatedValue "b", 10⟩ ∧
      ∃ k : Nat, Tiles 0 (tokens openValue).1 k ∧ k ≤ 10 ∧ 10 ≤ openValue.length := by
  have hlist : (tokens fourTags).1 =
      [⟨.text, "", 0, 1⟩, ⟨.selfClosing, "b", 1, 9⟩, ⟨.openTag, "e", 9, 18⟩, ⟨.text, "", 18, 23⟩,
       ⟨.closeTag, "e", 23, 29⟩, ⟨.comment, "", 29, 37⟩] := by decide +kernel
  have hnone : (tokens fourTags).2 = none := by decide +kernel
  have hsome : (tokens openValue).2 = some ⟨.unterminatedValue "b", 10⟩ := by decide +kernel
  have hfour := tokens_describe_text fourTags
  have hopen := tokens_describe_text openValue
  have hmem : (⟨.selfClosing, "b", 1, 9⟩ : Token) ∈ (tokens fourTags).1 := by rw [hlist]; decide
  exact ⟨by rw [hlist]; rfl, hnone, (hfour.2.2.1 hnone).2, hfour.1 _ hmem, hsome,
    hopen.2.2.2 _ hsome⟩

/-! ### Boundaries -/

theorem Tiles.exists_of_mem {a b : Nat} {ts : List Token} (h : Tiles a ts b) {t : Token}
    (ht : t ∈ ts) : ∃ xs ys : List Token, ts = xs ++ ([t] ++ ys) ∧ Tiles a xs t.start ∧
      Tiles t.start [t] t.stop := by
  obtain ⟨xs, ys, rfl⟩ := List.append_of_mem ht
  obtain ⟨c, hx, hrest⟩ := h.of_append
  cases hrest with
  | cons hs hlt hy =>
    subst hs
    exact ⟨xs, ys, rfl, hx, .cons rfl hlt (.nil _)⟩

/-- The offsets at which a text may be cut: its ends, and the starts of its tokens. -/
def Boundary (src : List Char) (k : Nat) : Prop :=
  k = 0 ∨ k = src.length ∨ ∃ t ∈ (tokens src).1, t.start = k

theorem exists_tiles_of_boundary (h : (tokens src).2 = none) {k : Nat} (hk : Boundary src k) :
    ∃ xs ys : List Token, (tokens src).1 = xs ++ ys ∧ Tiles 0 xs k := by
  have htiles := tokens_tiles_of_none h
  rcases hk with rfl | rfl | ⟨t, ht, rfl⟩
  · exact ⟨[], _, rfl, .nil 0⟩
  · exact ⟨_, [], (List.append_nil _).symm, htiles⟩
  · obtain ⟨xs, ys, hts, hx, -⟩ := htiles.exists_of_mem ht
    exact ⟨xs, _, hts, hx⟩

theorem tokens_piece (h : (tokens src).2 = none) {t : Token} (ht : t ∈ (tokens src).1) :
    tokens (t.piece src) = ([⟨t.kind, t.name, 0, t.stop - t.start⟩], none) := by
  obtain ⟨xs, ys, hts, hx, hself⟩ := (tokens_tiles_of_none h).exists_of_mem ht
  obtain ⟨hshift, hnone⟩ := tokens_slice hts hx hself
  have hone : (tokens (t.piece src)).1 = [t.unshift t.start] := by
    rw [← map_unshift_map_shift t.start (tokens (t.piece src)).1]
    show List.map _ ((tokens (slice src t.start t.stop)).1.map (Token.shift t.start)) = _
    rw [hshift]
    rfl
  refine Prod.ext (hone.trans ?_) hnone
  rw [Token.unshift, Nat.sub_self]

/-- **Lexing splits at the boundaries of tokens.**  The part of a text before a boundary and the part
after it have no fault, their tokens, one after another, are those of the text, and the piece under
each token has that token alone. -/
theorem tokens_split_at_boundary (src : List Char) (h : (tokens src).2 = none) (k : Nat)
    (hk : Boundary src k) :
    (tokens (src.take k)).2 = none ∧ (tokens (src.drop k)).2 = none ∧
      (tokens src).1 = (tokens (src.take k)).1 ++ (tokens (src.drop k)).1.map (Token.shift k) ∧
      ∀ t ∈ (tokens src).1,
        tokens (t.piece src) = ([⟨t.kind, t.name, 0, t.stop - t.start⟩], none) := by
  obtain ⟨xs, ys, hts, hx⟩ := exists_tiles_of_boundary h hk
  have htake := tokens_take hts hx
  obtain ⟨hdrop, hfault⟩ := map_shift_tokens_drop hts hx
  rw [h] at hfault
  refine ⟨by rw [htake], Option.map_eq_none_iff.mp hfault, ?_, fun t ht => tokens_piece h ht⟩
  rw [htake, hdrop, hts]

/-- The text may be cut before the group that hides a tag. -/
theorem tokens_split_at_boundary_group :
    (tokens fourTags).2 = none ∧ Boundary fourTags 18 ∧
      (tokens (fourTags.take 18)).2 = none ∧ (tokens (fourTags.drop 18)).2 = none ∧
      (tokens fourTags).1 =
        (tokens (fourTags.take 18)).1 ++ (tokens (fourTags.drop 18)).1.map (Token.shift 18) ∧
      tokens (slice fourTags 18 23) = ([⟨.text, "", 0, 5⟩], none) := by
  have hnone : (tokens fourTags).2 = none := by decide +kernel
  have hmem : (⟨.text, "", 18, 23⟩ : Token) ∈ (tokens fourTags).1 := by decide +kernel
  have hk : Boundary fourTags 18 := .inr (.inr ⟨_, hmem, rfl⟩)
  obtain ⟨htake, hdrop, hsplit, hone⟩ := tokens_split_at_boundary fourTags hnone 18 hk
  exact ⟨hnone, hk, htake, hdrop, hsplit, hone _ hmem⟩

end Mdx.Element
