import Mdx.Proofs.Element.Grammar
import Mdx.Proofs.Element.Tokens
import Mdx.Proofs.Script.Inert

/-!
# Texts that are read the same whatever follows

A text is spelled by a list of marks if the lexer goes through it tag by tag and piece by piece as the
marks say, whatever follows the text (`Spells`).  Such texts can be put one after another
(`Spells.append`), and the tags and the pieces between them can be read off the marks
(`Spells.tokens_eq`, `Spells.gaps_eq`).

Tags that nest have an outline, which is their tree without names and texts (`Nested`).  A text whose
tags nest is accepted, and the elements that it is read as have the same outline
(`Spells.exists_parseFragment`).
-/

namespace Mdx.Element

open Mdx.Script (Inert groupRest? groupRest?_braces groupRest?_suffix length_lt_of_groupRest?)

/-! ### Marks -/

/-- What the lexer finds: a tag or comment of a kind and a name, or a piece of text. -/
inductive Mark where
  | tag (kind : TokenKind) (name : String)
  | text (piece : List Char)

/-- The tags of a list of marks. -/
def tagsOf : List Mark → List (TokenKind × String)
  | [] => []
  | .tag kind name :: ms => (kind, name) :: tagsOf ms
  | .text _ :: ms => tagsOf ms

/-- The texts before, between and after the tags of a list of marks. -/
def gapsOf : List Mark → List (List Char)
  | [] => [[]]
  | .tag _ _ :: ms => [] :: gapsOf ms
  | .text piece :: ms => (gapsOf ms).modifyHead (piece ++ ·)

/-- The text is read as the marks say, whatever follows it. -/
inductive Spells : List Char → List Mark → Prop
  | nil : Spells [] []
  | tag {x s : List Char} {ms : List Mark} {kind : TokenKind} {name : String}
      (h : ∀ u : List Char, lexemeAfter (x ++ u) = .ok (some ⟨kind, name, u⟩)) (rest : Spells s ms) :
      Spells ('<' :: (x ++ s)) (.tag kind name :: ms)
  | text {x s : List Char} {ms : List Mark}
      (h : ∀ u : List Char, Passes (x ++ (s ++ u)) (s ++ u)) (rest : Spells s ms) :
      Spells (x ++ s) (.text x :: ms)

theorem tagsOf_append (ms ns : List Mark) : tagsOf (ms ++ ns) = tagsOf ms ++ tagsOf ns := by
  induction ms with
  | nil => rfl
  | cons m ms ih => cases m <;> simp [tagsOf, ih]

theorem Spells.append {s t : List Char} {ms ns : List Mark} (hs : Spells s ms) (ht : Spells t ns) :
    Spells (s ++ t) (ms ++ ns) := by
  induction hs with
  | nil => exact ht
  | @tag x s ms kind name h rest ih =>
    rw [List.cons_append, List.append_assoc]
    exact .tag h ih
  | @text x s ms h rest ih =>
    rw [List.append_assoc]
    refine .text (fun u => ?_) ih
    rw [List.append_assoc]
    exact h (t ++ u)

/-- A tag before a spelled text, which is read the same whatever follows it. -/
theorem Spells.lexeme {rest : List Char} {l : Lexeme} {ms : List Mark} (hs : Spells l.rest ms)
    (h : lexemeAfter rest = .ok (some l)) : Spells ('<' :: rest) (.tag l.kind l.name :: ms) := by
  obtain ⟨x, hx⟩ := lexemeAfter_suffix h
  rw [← hx] at h ⊢
  rw [List.append_cons]
  refine .tag (fun u => ?_) hs
  rw [← List.append_cons]
  exact lexemeAfter_replace h u

theorem Spells.exists_group {rest after : List Char} {ms : List Mark} (hs : Spells after ms)
    (h : groupRest? ('\x7b' :: rest) = some after) :
    ∃ ms : List Mark, Spells ('\x7b' :: rest) ms := by
  obtain ⟨y, hy⟩ := groupRest?_suffix h
  cases y with
  | nil =>
    have hlt := length_lt_of_groupRest? h
    rw [← hy] at hlt
    exact absurd hlt (Nat.lt_irrefl _)
  | cons c y =>
    obtain ⟨rfl, rfl⟩ := List.cons.inj hy
    -- a group ends at the same place whatever follows
    refine ⟨.text ('\x7b' :: y) :: ms, .text (x := '\x7b' :: y) (fun u => ?_) hs⟩
    exact .group (groupRest?_replace (r := []) (s := '\x7b' :: y) h (after ++ u))

/-! ### Tags as they are written -/

/-- The attributes are passed over in a tag, whatever follows them. -/
def Skips (x : List Char) : Prop :=
  ∀ (name : String) (start u : List Char), tagRest name start (x ++ u) = tagRest name start u

theorem skips_nil : Skips [] :=
  fun _ _ _ => rfl

theorem Skips.append {x y : List Char} (hx : Skips x) (hy : Skips y) : Skips (x ++ y) := by
  intro name start u
  rw [List.append_assoc, hx, hy]

theorem tagRest_attribute {key : List Char} (hne : key ≠ [])
    (hkey : key.all isAttributeChar = true) {name : String} {d : Char} {rest u : List Char}
    (hd : Text.isBlank d = false) (hv : valueRest name (d :: rest) = .ok u) (start : List Char) :
    tagRest name start (' ' :: (key ++ '=' :: d :: rest)) = tagRest name start u := by
  obtain ⟨c, key, rfl⟩ := List.exists_cons_of_ne_nil hne
  obtain ⟨hc, hkey⟩ := List.forall_mem_cons.mp (List.all_eq_true.mp hkey)
  have hc' := hc
  simp only [isAttributeChar, Bool.not_eq_true', Bool.or_eq_false_iff] at hc'
  obtain ⟨⟨⟨⟨⟨⟨⟨⟨hblank, -⟩, hslash⟩, hclose⟩, hbrace⟩, -⟩, -⟩, -⟩, -⟩ := hc'
  have hnext : ((key ++ '=' :: d :: rest).dropWhile isAttributeChar).dropWhile Text.isBlank =
      '=' :: d :: rest := by
    rw [List.dropWhile_append_of_pos hkey, List.dropWhile_cons_of_neg (by decide),
      List.dropWhile_cons_of_neg (by decide)]
  have hstart : (' ' :: (c :: key ++ '=' :: d :: rest)).dropWhile Text.isBlank =
      c :: (key ++ '=' :: d :: rest) := by
    rw [List.dropWhile_cons_of_pos (by decide), List.cons_append,
      List.dropWhile_cons_of_neg (by simp [hblank])]
  have hattribute : attributeRest name c (key ++ '=' :: d :: rest) = .ok u := by
    rw [attributeRest, hbrace, hc, hnext, if_neg (by simp), if_pos rfl]
    dsimp only
    rw [List.head?_cons, if_pos (by decide), List.tail_cons,
      List.dropWhile_cons_of_neg (by simp [hd]), hv]
  rw [tagRest_eq, hstart]
  dsimp only
  rw [hslash, hclose, hattribute]
  rfl

/-- An attribute whose value is in quotes. -/
def quotedAttribute (key value : List Char) : List Char :=
  ' ' :: (key ++ '=' :: '\x22' :: (value ++ ['\x22']))

/-- An attribute whose value is an expression. -/
def expressionAttribute (key value : List Char) : List Char :=
  ' ' :: (key ++ '=' :: '\x7b' :: (value ++ ['\x7d']))

theorem skips_quoted {key value : List Char} (hne : key ≠ [])
    (hkey : key.all isAttributeChar = true) (hv : '\x22' ∉ value) :
    Skips (quotedAttribute key value) := by
  intro name start u
  have hrest : valueRest name ('\x22' :: (value ++ '\x22' :: u)) = .ok u := by
    have hpass : ∀ c ∈ value, (c != '\x22') = true := fun c hc =>
      bne_iff_ne.mpr (ne_of_mem_of_not_mem hc hv)
    rw [valueRest, if_pos (by decide), List.dropWhile_append_of_pos hpass,
      List.dropWhile_cons_of_neg (by decide)]
  have heq : quotedAttribute key value ++ u =
      ' ' :: (key ++ '=' :: '\x22' :: (value ++ '\x22' :: u)) := by simp [quotedAttribute]
  rw [heq]
  exact tagRest_attribute hne hkey (by decide) hrest start

theorem skips_expression {key value : List Char} (hne : key ≠ [])
    (hkey : key.all isAttributeChar = true) (hv : Inert value) :
    Skips (expressionAttribute key value) := by
  intro name start u
  have hrest : valueRest name ('\x7b' :: (value ++ '\x7d' :: u)) = .ok u := by
    rw [valueRest, if_neg (by decide), if_pos (by decide), groupRest?_braces hv]
  have heq : expressionAttribute key value ++ u =
      ' ' :: (key ++ '=' :: '\x7b' :: (value ++ '\x7d' :: u)) := by simp [expressionAttribute]
  rw [heq]
  exact tagRest_attribute hne hkey (by decide) hrest start

theorem lexemeAfter_written {c : Char} {name x : List Char} (hc : isNameStart c = true)
    (hname : name.all isNameRest = true) (hx : Skips (' ' :: x)) {ending u : List Char}
    {closed : Bool} (hend : ∀ (n : String) (start : List Char),
      tagRest n start (ending ++ u) = .ok (closed, u)) :
    lexemeAfter (c :: name ++ (' ' :: x ++ (ending ++ u))) =
      .ok (some ⟨if closed then .selfClosing else .openTag, String.ofList (c :: name), u⟩) := by
  have hname := List.all_eq_true.mp hname
  have htake : (name ++ (' ' :: x ++ (ending ++ u))).takeWhile isNameRest = name := by
    rw [List.takeWhile_append_of_pos hname, List.cons_append, List.takeWhile_cons_of_neg (by decide),
      List.append_nil]
  have hdrop : (name ++ (' ' :: x ++ (ending ++ u))).dropWhile isNameRest =
      ' ' :: x ++ (ending ++ u) := by
    rw [List.dropWhile_append_of_pos hname, List.cons_append, List.dropWhile_cons_of_neg (by decide)]
  rw [List.cons_append, lexemeAfter_tag hc, htake, hdrop, hx, hend]

theorem tagRest_bracket (name : String) (start u : List Char) :
    tagRest name start (['>'] ++ u) = .ok (false, u) := by
  rw [tagRest_eq, List.singleton_append, List.dropWhile_cons_of_neg (by decide)]
  rfl

theorem tagRest_slash (name : String) (start u : List Char) :
    tagRest name start ([' ', '/', '>'] ++ u) = .ok (true, u) := by
  rw [tagRest_eq]
  have hdrop : ([' ', '/', '>'] ++ u).dropWhile Text.isBlank = '/' :: '>' :: u := by
    rw [List.cons_append, List.dropWhile_cons_of_pos (by decide), List.cons_append,
      List.dropWhile_cons_of_neg (by decide)]
    rfl
  rw [hdrop]
  rfl

/-! ### Tokens -/

/-- The tags and comments among tokens. -/
def tagsAmong (ts : List Token) : List Token :=
  ts.filter fun t => t.kind != .text

/-- The kind and the name of a token. -/
def Token.label (t : Token) : TokenKind × String :=
  (t.kind, t.name)

/-- The texts before, between and after tags, from an offset on. -/
def gapsFrom (src : List Char) (start : Nat) : List Token → List (List Char)
  | [] => [src.drop start]
  | t :: ts => slice src start t.start :: gapsFrom src t.stop ts

/-- The texts before, between and after the tags of a text. -/
def gaps (src : List Char) : List (List Char) :=
  gapsFrom src 0 (tagsAmong (tokens src).1)

theorem tagsAmong_textToken (a b : Nat) (ts : List Token) :
    tagsAmong (textToken a b ++ ts) = tagsAmong ts := by
  rw [textToken]
  split <;> rfl

theorem tagsAmong_append (xs ys : List Token) : tagsAmong (xs ++ ys) = tagsAmong xs ++ tagsAmong ys :=
  List.filter_append xs ys

theorem tagsAmong_text {t : Token} (h : t.kind = .text) (ts : List Token) :
    tagsAmong (t :: ts) = tagsAmong ts :=
  List.filter_cons_of_neg (by simp [h])

theorem tagsAmong_tag {t : Token} (h : t.kind ≠ .text) (ts : List Token) :
    tagsAmong (t :: ts) = t :: tagsAmong ts :=
  List.filter_cons_of_pos (by simpa using h)

theorem kind_ne_text {s : List Char} {l : Lexeme} (h : lexemeAfter s = .ok (some l)) :
    l.kind ≠ .text := by
  cases lexemeAfter_eq_some_iff.mp h with
  | comment h => simp
  | closing h => simp
  | fragment => simp
  | @tag c tail r b hc h => cases b <;> simp

/-- The tokens that are read from the offset `start` on are those of the marks, where the text `g` has
been passed over before. -/
structure ReadAs (src : List Char) (start : Nat) (g : List Char)
    (found : List Token × Option LexicalFault) (ms : List Mark) : Prop where
  fault : found.2 = none
  tags : (tagsAmong found.1).map Token.label = tagsOf ms
  gaps : gapsFrom src start (tagsAmong found.1) = (gapsOf ms).modifyHead (g ++ ·)

theorem readAs_nil (p g : List Char) :
    ReadAs (p ++ g) p.length g (tokensFrom (p ++ g).length p.length []) [] := by
  have htags : tagsAmong (textToken p.length (p ++ g).length) = [] := by
    rw [← List.append_nil (textToken _ _), tagsAmong_textToken]
    rfl
  rw [tokensFrom_nil]
  refine ⟨rfl, ?_, ?_⟩
  · rw [htags]
    rfl
  · rw [htags, gapsFrom, List.drop_left, gapsOf, List.modifyHead_cons, List.append_nil]

theorem readAs_tag {p g x s : List Char} {ms : List Mark} {kind : TokenKind} {name : String}
    {src : List Char} (hsrc : src = p ++ (g ++ '<' :: (x ++ s)))
    (h : lexemeAfter (x ++ s) = .ok (some ⟨kind, name, s⟩))
    (rest : ReadAs src (p ++ (g ++ '<' :: x)).length []
      (tokensFrom src.length (p ++ (g ++ '<' :: x)).length s) ms) :
    ReadAs src p.length g (tokensFrom src.length p.length ('<' :: (x ++ s))) (.tag kind name :: ms) := by
  have hstart : src.length - ((x ++ s).length + 1) = p.length + g.length := by
    simp only [hsrc, List.length_append, List.length_cons]
    omega
  have hstop : src.length - s.length = (p ++ (g ++ '<' :: x)).length := by
    simp only [hsrc, List.length_append, List.length_cons]
    omega
  have hgap : slice src p.length (p.length + g.length) = g := by
    rw [slice, Nat.add_sub_cancel_left, hsrc, List.drop_left, List.take_left]
  rw [tokensFrom_lexeme h, hstart, hstop]
  constructor
  · exact rest.fault
  · rw [tagsAmong_textToken, tagsAmong_tag (kind_ne_text h), List.map_cons, tagsOf, ← rest.tags]
    rfl
  · rw [tagsAmong_textToken, tagsAmong_tag (kind_ne_text h), gapsFrom, gapsOf,
      List.modifyHead_cons, List.append_nil, hgap]
    refine congrArg (g :: ·) (rest.gaps.trans ?_)
    exact congrFun List.modifyHead_id (gapsOf ms)

/-- **A spelled text is read as its marks say**, from any place on. -/
theorem Spells.readAs {s : List Char} {ms : List Mark} (h : Spells s ms) :
    ∀ p g src : List Char, src = p ++ (g ++ s) →
      ReadAs src p.length g (tokensFrom src.length p.length s) ms := by
  induction h with
  | nil =>
    rintro p g src rfl
    rw [List.append_nil]
    exact readAs_nil p g
  | @tag x s ms kind name h rest ih =>
    intro p g src hsrc
    exact readAs_tag hsrc (h s) (ih (p ++ (g ++ '<' :: x)) [] src (by rw [hsrc]; simp))
  | @text x s ms h rest ih =>
    intro p g src hsrc
    have hpass : Passes (x ++ s) s := by simpa using h []
    have hrest := ih p (g ++ x) src (by rw [hsrc, List.append_assoc g])
    rw [tokensFrom_pass hpass]
    refine ⟨hrest.fault, hrest.tags, ?_⟩
    rw [hrest.gaps, gapsOf, List.modifyHead_modifyHead]
    simp only [Function.comp_def, List.append_assoc]

theorem Spells.tokens_eq {s : List Char} {ms : List Mark} (h : Spells s ms) :
    (tokens s).2 = none ∧ (tagsAmong (tokens s).1).map Token.label = tagsOf ms :=
  have hread := h.readAs [] [] s rfl
  ⟨hread.fault, hread.tags⟩

theorem Spells.gaps_eq {s : List Char} {ms : List Mark} (h : Spells s ms) : gaps s = gapsOf ms :=
  (h.readAs [] [] s rfl).gaps.trans (congrFun List.modifyHead_id (gapsOf ms))

-- The closing tag in the braces is no tag.
example : gaps "a<b>\x7b\x60</b>\x60\x7d</b>\n".toList =
    ["a", "\x7b\x60</b>\x60\x7d", "\n"].map String.toList := by decide +kernel

/-! ### Outlines -/

/-- A tree of which only the nesting is known. -/
inductive Outline where
  | node (inner : List Outline)

mutual

/-- The nodes of the kinds `outer` and `inner` as they nest, without all others and what is in them.
Those of the kinds `inner` are leaves, whatever is in them. -/
def outline (outer inner : List String) : Node → List Outline
  | .leaf h => if h.kind ∈ outer ∨ h.kind ∈ inner then [.node []] else []
  | .branch h cs =>
      if h.kind ∈ outer then [.node (outlines outer inner cs)]
      else if h.kind ∈ inner then [.node []]
      else []

/-- The outlines of nodes, one after another. -/
def outlines (outer inner : List String) : List Node → List Outline
  | [] => []
  | n :: rest => outline outer inner n ++ outlines outer inner rest

end

section

variable {outer inner : List String}

theorem outlines_append (ms ns : List Node) :
    outlines outer inner (ms ++ ns) = outlines outer inner ms ++ outlines outer inner ns := by
  induction ms with
  | nil => rfl
  | cons m ms ih => rw [List.cons_append, outlines, outlines, ih, List.append_assoc]

theorem outlines_singleton (n : Node) : outlines outer inner [n] = outline outer inner n :=
  List.append_nil (outline outer inner n)

theorem outline_outer {n : Node} (h : n.kind ∈ outer) :
    outline outer inner n = [.node (outlines outer inner n.children)] := by
  cases n with
  | leaf _ => exact if_pos (.inl h)
  | branch _ _ => exact if_pos h

theorem outline_inner {n : Node} (h : n.kind ∉ outer) (h' : n.kind ∈ inner) :
    outline outer inner n = [.node []] := by
  cases n with
  | leaf _ => exact if_pos (.inr h')
  | branch _ _ => exact (if_neg h).trans (if_pos h')

theorem outline_other {n : Node} (h : n.kind ∉ outer) (h' : n.kind ∉ inner) :
    outline outer inner n = [] := by
  cases n with
  | leaf _ => exact if_neg (not_or.mpr ⟨h, h'⟩)
  | branch _ _ => exact (if_neg h).trans (if_neg h')

end

/-- Tags that nest as the outlines do. -/
inductive Nested : List (TokenKind × String) → List Outline → Prop
  | nil : Nested [] []
  | comment {name : String} {ts : List (TokenKind × String)} {os : List Outline}
      (rest : Nested ts os) : Nested ((.comment, name) :: ts) os
  | selfClosing {name : String} {ts : List (TokenKind × String)} {os : List Outline}
      (rest : Nested ts os) : Nested ((.selfClosing, name) :: ts) (.node [] :: os)
  | element {name : String} {inner ts : List (TokenKind × String)} {is os : List Outline}
      (body : Nested inner is) (rest : Nested ts os) :
      Nested ((.openTag, name) :: (inner ++ (.closeTag, name) :: ts)) (.node is :: os)

theorem Nested.append {ts us : List (TokenKind × String)} {os ps : List Outline} (h : Nested ts os)
    (h' : Nested us ps) : Nested (ts ++ us) (os ++ ps) := by
  induction h with
  | nil => exact h'
  | comment _ ih => exact .comment ih
  | selfClosing _ ih => exact .selfClosing ih
  | element body _ _ ih =>
    rw [List.cons_append, List.append_assoc, List.cons_append, List.cons_append]
    exact .element body ih

theorem Fragment.nested {ts : List Token} (d : Fragment ts) :
    ∃ os : List Outline, Nested ((tagsAmong ts).map Token.label) os := by
  induction d with
  | nil => exact ⟨[], .nil⟩
  | @text t ts ht rest ih =>
    rw [tagsAmong_text ht]
    exact ih
  | @comment t ts ht rest ih =>
    obtain ⟨os, h⟩ := ih
    rw [tagsAmong_tag (by simp [ht]), List.map_cons, Token.label, ht]
    exact ⟨os, .comment h⟩
  | @selfClosing t ts ht rest ih =>
    obtain ⟨os, h⟩ := ih
    rw [tagsAmong_tag (by simp [ht]), List.map_cons, Token.label, ht]
    exact ⟨.node [] :: os, .selfClosing h⟩
  | @element first last inner ts hf hl hn body rest ihb ihr =>
    obtain ⟨is, hb⟩ := ihb
    obtain ⟨os, hr⟩ := ihr
    rw [tagsAmong_tag (by simp [hf]), tagsAmong_append, tagsAmong_tag (by simp [hl]), List.map_cons,
      List.map_append, List.map_cons, Token.label, Token.label, hf, hl, hn]
    exact ⟨.node is :: os, .element hb hr⟩

/-- The outline of the elements that markup is read as. -/
def outlineOf (ns : List Node) : List Outline :=
  outlines ["jsx"] [] ns

/-- The tokens are a fragment of this outline. -/
def Outlined (src : List Char) (place : Placement) (ts : List Token) (os : List Outline) : Prop :=
  ∃ d : Fragment ts, outlineOf (d.denote src place) = os

variable {src : List Char} {place : Placement} {ts : List Token} {os : List Outline}

theorem Outlined.text {t : Token} (ht : t.kind = .text) (h : Outlined src place ts os) :
    Outlined src place (t :: ts) os := by
  obtain ⟨d, hd⟩ := h
  refine ⟨.text ht d, ?_⟩
  rw [Fragment.denote]
  split
  · exact hd
  · rw [← hd]
    rfl

theorem Outlined.texts {pre : List Token} (hpre : ∀ t ∈ pre, t.kind = .text)
    (h : Outlined src place ts os) : Outlined src place (pre ++ ts) os := by
  induction pre with
  | nil => exact h
  | cons t pre ih =>
    obtain ⟨ht, hpre⟩ := List.forall_mem_cons.mp hpre
    exact (ih hpre).text ht

theorem exists_of_tagsAmong_cons {kind : TokenKind} {name : String}
    {labels : List (TokenKind × String)}
    (h : (tagsAmong ts).map Token.label = (kind, name) :: labels) :
    ∃ (pre : List Token) (t : Token) (rest : List Token), ts = pre ++ t :: rest ∧
      (∀ t ∈ pre, t.kind = .text) ∧ t.kind = kind ∧ t.name = name ∧
      (tagsAmong rest).map Token.label = labels := by
  obtain ⟨t, us, hts, hlabel, hus⟩ := List.map_eq_cons_iff.mp h
  obtain ⟨pre, rest, rfl, hpre, -, rfl⟩ := List.filter_eq_cons_iff.mp hts
  obtain ⟨hk, hn⟩ := Prod.mk.inj hlabel
  exact ⟨pre, t, rest, rfl, fun t ht => by simpa using hpre t ht, hk, hn, hus⟩

/-- **Tokens whose tags nest are a fragment with the same outline.** -/
theorem Nested.outlined {labels : List (TokenKind × String)} (h : Nested labels os) :
    ∀ ts : List Token, (tagsAmong ts).map Token.label = labels → Outlined src place ts os := by
  induction h with
  | nil =>
    intro ts hts
    have htexts : ∀ t ∈ ts, t.kind = .text := fun t ht => by
      simpa using List.filter_eq_nil_iff.mp (List.map_eq_nil_iff.mp hts) t ht
    have hend : Outlined src place [] [] := ⟨.nil, rfl⟩
    rw [← List.append_nil ts]
    exact hend.texts htexts
  | comment rest ih =>
    intro ts hts
    obtain ⟨pre, t, us, rfl, hpre, hk, -, hus⟩ := exists_of_tagsAmong_cons hts
    obtain ⟨d, hd⟩ := ih us hus
    exact Outlined.texts hpre ⟨.comment hk d, hd⟩
  | selfClosing rest ih =>
    intro ts hts
    obtain ⟨pre, t, us, rfl, hpre, hk, -, hus⟩ := exists_of_tagsAmong_cons hts
    obtain ⟨d, hd⟩ := ih us hus
    exact Outlined.texts hpre ⟨.selfClosing hk d, congrArg (Outline.node [] :: ·) hd⟩
  | @element name inner labels is os body rest ihb ihr =>
    intro ts hts
    obtain ⟨pre, first, us, rfl, hpre, hf, hfn, hus⟩ := exists_of_tagsAmong_cons hts
    -- the tokens up to the closing tag, and those from there on
    obtain ⟨as, bs, hsplit, has, hbs⟩ := List.map_eq_append_iff.mp hus
    obtain ⟨vs, ws, rfl, rfl, rfl⟩ := List.filter_eq_append_iff.mp hsplit
    obtain ⟨pre', last, us, rfl, hpre', hl, hln, hus⟩ := exists_of_tagsAmong_cons hbs
    have hinner : (tagsAmong (vs ++ pre')).map Token.label = inner := by
      have hnone : tagsAmong pre' = [] := List.filter_eq_nil_iff.mpr fun t ht => by simp [hpre' t ht]
      rw [tagsAmong_append, hnone, List.append_nil]
      exact has
    obtain ⟨d, hd⟩ := ihb (vs ++ pre') hinner
    obtain ⟨d', hd'⟩ := ihr us hus
    refine Outlined.texts hpre ?_
    rw [← List.append_assoc]
    refine ⟨.element hf hl (hfn.trans hln.symm) d d', ?_⟩
    rw [← hd, ← hd']
    rfl

/-- **A spelled text whose tags nest is accepted**, and what it is read as has the same outline. -/
theorem Spells.exists_parseFragment {s : List Char} {ms : List Mark} (h : Spells s ms)
    (hn : Nested (tagsOf ms) os) (place : Placement) :
    ∃ ns : List Node, parseFragment s place = .ok ns ∧ outlineOf ns = os := by
  obtain ⟨hfault, htags⟩ := h.tokens_eq
  obtain ⟨d, hd⟩ := hn.outlined (tokens s).1 htags
  exact ⟨d.denote s place, parseFragment_eq_ok_iff.mpr ⟨hfault, d, rfl⟩, hd⟩

end Mdx.Element
