import Mdx.Proofs.Element.Tag

/-!
# How tags and comments are written

`TokenKind.Writes kind name piece` says what a token of a kind and a name looks like: a comment stands
between its two marks, a closing tag has nothing but blanks around its name, and an opening tag starts
with its name and closes itself exactly if it ends with `/>`.  Whatever the lexer reads after an angle
bracket is written so (`writes_of_lexemeAfter`).

The last fact is the one that takes work.  A tag that is not closed by `/>` ends with a bracket of its
own, and the character before that bracket is the last one of the name, of an attribute or of some
blanks.  Only a value without quotes may end with a slash, and such a value gives its slash back if a
bracket follows.  `Clear w s` is what the attribute loop keeps: no slash stands right before `s` in
`w`, if `s` starts with a closing bracket.
-/

namespace Mdx.Element

open Mdx.Script (groupRest? groupRest?_closer isCloser)

/-! ### Ends of a text -/

theorem eq_of_cons_suffix {c d : Char} {s w : List Char} (hc : c :: s <:+ w) (hd : d :: s <:+ w) :
    c = d := by
  have h := (List.suffix_of_suffix_length_le hc hd (Nat.le_refl _)).eq_of_length rfl
  exact (List.cons.inj h).1

/-! ### The slash before a bracket -/

/-- No slash stands right before this end of a text, if it starts with a closing bracket. -/
def Clear (w s : List Char) : Prop :=
  s.head? = some '>' → ¬ '/' :: s <:+ w

theorem clear_of_suffix {w s : List Char} {d : Char} (hd : d ≠ '/') (h : d :: s <:+ w) :
    Clear w s := by
  intro _ hslash
  exact hd (eq_of_cons_suffix h hslash)

theorem clear_of_head {w s : List Char} (h : s.head? ≠ some '>') : Clear w s :=
  fun hs => absurd hs h

theorem Clear.dropWhile {p : Char → Bool} (hp : p '/' = false) {w s : List Char} (hs : s <:+ w)
    (h : Clear w s) : Clear w (s.dropWhile p) := by
  rcases dropWhile_eq_self_or p s with heq | ⟨d, hd, hsuf⟩
  · rwa [heq]
  · refine clear_of_suffix ?_ (hsuf.trans hs)
    rintro rfl
    rw [hp] at hd
    cases hd

theorem ne_slash_of_isCloser {c : Char} (h : isCloser c = true) : c ≠ '/' := by
  rintro rfl
  exact absurd h (by decide)

/-- **No slash is left before a bracket by a value.** -/
theorem clear_of_valueRest {name : String} {w s r : List Char} (hs : s <:+ w)
    (h : valueRest name s = .ok r) : Clear w r := by
  cases s with
  | nil => cases h
  | cons c rest =>
    by_cases hq : (c == '\x22' || c == '\x27') = true
    · rw [valueRest, if_pos hq] at h
      split at h
      · cases h
      · -- the character before the rest is the closing quote
        rename_i q after heq
        obtain rfl := Except.ok.inj h
        have hc : (q != c) = false := by
          have := List.head?_dropWhile_not (· != c) rest
          rwa [heq] at this
        obtain rfl : q = c := by simpa using hc
        have hslash : q ≠ '/' := by
          rintro rfl
          exact absurd hq (by decide)
        have hsuf : q :: after <:+ rest := heq ▸ List.dropWhile_suffix (· != q)
        exact clear_of_suffix hslash (hsuf.trans ((List.suffix_cons q rest).trans hs))
    by_cases hb : (c == '\x7b') = true
    · rw [valueRest, if_neg hq, if_pos hb] at h
      split at h
      · rename_i after hg
        obtain rfl := Except.ok.inj h
        obtain ⟨d, hd, hsuf⟩ := groupRest?_closer hg
        exact clear_of_suffix (ne_slash_of_isCloser hd) (hsuf.trans hs)
      · cases h
    rw [valueRest_unquoted (by simpa using hq) (by simpa using hb)] at h
    dsimp only at h
    split at h
    · cases h
    rename_i hv
    split at h
    · -- the slash has been given back
      obtain rfl := Except.ok.inj h
      exact clear_of_head (by simp)
    · rename_i hlast
      obtain rfl := Except.ok.inj h
      intro hhead hslash
      cases hl : ((c :: rest).takeWhile isUnquotedChar).getLast? with
      | none => exact hv (List.getLast?_eq_none_iff.mp hl)
      | some d =>
        obtain ⟨v, hvd⟩ := List.getLast?_eq_some_iff.mp hl
        have happ := List.takeWhile_append_dropWhile (p := isUnquotedChar) (l := c :: rest)
        rw [hvd, List.append_assoc] at happ
        have hd : d :: (c :: rest).dropWhile isUnquotedChar <:+ w := .trans ⟨v, happ⟩ hs
        exact hlast ⟨by rw [hl, eq_of_cons_suffix hd hslash], hhead⟩

theorem clear_of_attributeRest {name : String} {c : Char} {w rest next : List Char}
    (hs : c :: rest <:+ w) (h : attributeRest name c rest = .ok next) : Clear w next := by
  have hrest : rest <:+ w := (List.suffix_cons c rest).trans hs
  rw [attributeRest] at h
  split at h
  · split at h
    · rename_i after hg
      obtain rfl := Except.ok.inj h
      obtain ⟨d, hd, hsuf⟩ := groupRest?_closer hg
      exact clear_of_suffix (ne_slash_of_isCloser hd) (hsuf.trans hs)
    · cases h
  split at h
  · rename_i hc
    have hname : Clear w rest := by
      refine clear_of_suffix ?_ hs
      rintro rfl
      exact absurd hc (by decide)
    have hsuf : rest.dropWhile isAttributeChar <:+ w := (List.dropWhile_suffix _).trans hrest
    dsimp only at h
    split at h
    · refine clear_of_valueRest ?_ h
      exact (List.dropWhile_suffix _).trans
        ((List.tail_suffix _).trans ((List.dropWhile_suffix _).trans hsuf))
    · obtain rfl := Except.ok.inj h
      exact (hname.dropWhile (by decide) hrest).dropWhile (by decide) hsuf
  · cases h

/-- **A tag closes itself exactly if a slash stands before its last bracket.** -/
theorem tagRest_iff_slash {name : String} {start w r : List Char} {b : Bool} : ∀ s : List Char,
    s <:+ w → Clear w s → tagRest name start s = .ok (b, r) → (b = true ↔ '/' :: '>' :: r <:+ w) := by
  intro s
  induction hn : s.length using Nat.strong_induction_on generalizing s with
  | _ n ih =>
    subst hn
    intro hs hclear h
    have hdrop := List.dropWhile_suffix (l := s) Text.isBlank
    have hclear' := hclear.dropWhile (p := Text.isBlank) (by decide) hs
    rw [tagRest_eq] at h
    cases hd : s.dropWhile Text.isBlank with
    | nil =>
      rw [hd] at h
      cases h
    | cons c rest =>
      rw [hd] at h hdrop hclear'
      dsimp only at h
      split at h
      · rename_i hc
        obtain ⟨rfl, rfl⟩ := Prod.mk.inj (Except.ok.inj h)
        cases rest with
        | nil => simp at hc
        | cons d rest =>
          obtain ⟨rfl, rfl⟩ : c = '/' ∧ d = '>' := by simpa using hc
          exact ⟨fun _ => hdrop.trans hs, fun _ => rfl⟩
      split at h
      · rename_i hc
        obtain ⟨rfl, rfl⟩ := Prod.mk.inj (Except.ok.inj h)
        obtain rfl : c = '>' := by simpa using hc
        exact ⟨fun hb => (by cases hb), fun hslash => absurd hslash (hclear' rfl)⟩
      split at h
      · cases h
      · rename_i next ha
        have hnext := (attributeRest_suffix ha).trans (List.suffix_cons c rest)
        have hlt : next.length < s.length :=
          (Nat.lt_succ_of_le (attributeRest_suffix ha).length_le).trans_le hdrop.length_le
        exact ih next.length hlt next rfl (hnext.trans (hdrop.trans hs))
          (clear_of_attributeRest (hdrop.trans hs) ha) h

/-! ### How tokens are written -/

/-- The name of a tag; a fragment's tags do without. -/
def IsTagName : List Char → Prop
  | [] => True
  | c :: rest => isNameStart c = true ∧ ∀ d ∈ rest, isNameRest d = true

/-- How a token of a kind and a name is written.  The name of an opening tag goes on as far as it
can. -/
def TokenKind.Writes (kind : TokenKind) (name : String) (piece : List Char) : Prop :=
  match kind with
  | .comment =>
      name = "" ∧ ∃ body : List Char, piece = ['<', '!', '-', '-'] ++ (body ++ ['-', '-', '>'])
  | .closeTag =>
      IsTagName name.toList ∧ ∃ before after : List Char,
        before.all Text.isBlank = true ∧ after.all Text.isBlank = true ∧
          piece = ['<', '/'] ++ (before ++ (name.toList ++ (after ++ ['>'])))
  | .openTag | .selfClosing =>
      IsTagName name.toList ∧
        (∃ body : List Char, body.head?.any isNameRest = false ∧
          piece = ['<'] ++ (name.toList ++ (body ++ ['>']))) ∧
        (kind = .selfClosing ↔ ['/', '>'] <:+ piece)
  | .text => name = ""

theorem commentRest?_mark {r : List Char} : ∀ s : List Char,
    commentRest? s = some r → '-' :: '-' :: '>' :: r <:+ s := by
  intro s
  induction s with
  | nil => intro h; cases h
  | cons c rest ih =>
    intro h
    rw [commentRest?_cons] at h
    split at h
    · rename_i hc
      obtain rfl := Option.some.inj h
      obtain ⟨rfl, htake⟩ : c = '-' ∧ rest.take 2 = ['-', '>'] := by simpa using hc
      refine ⟨[], ?_⟩
      conv_rhs => rw [← List.take_append_drop 2 rest, htake]
      rfl
    · exact (ih h).trans (List.suffix_cons c rest)

theorem isTagName_takeWhile {c : Char} (hc : isNameStart c = true) (tail : List Char) :
    IsTagName (c :: tail.takeWhile isNameRest) :=
  ⟨hc, fun _ hd => List.mem_takeWhile_imp hd⟩

theorem exists_of_closingBracket? {name rest r : List Char} {n : String}
    (h : closingBracket? name rest = some (n, r)) :
    n.toList = name ∧ ∃ after : List Char, after.all Text.isBlank = true ∧
      rest = after ++ '>' :: r := by
  rw [closingBracket?] at h
  split at h
  · rename_i heq
    obtain ⟨rfl, rfl⟩ := Prod.mk.inj (Option.some.inj h)
    refine ⟨String.toList_ofList, rest.takeWhile Text.isBlank, List.all_takeWhile, ?_⟩
    rw [← heq, List.takeWhile_append_dropWhile]
  · cases h

theorem exists_of_closingTag? {s r : List Char} {name : String}
    (h : closingTag? s = some (name, r)) :
    IsTagName name.toList ∧ ∃ before after : List Char,
      before.all Text.isBlank = true ∧ after.all Text.isBlank = true ∧
        s = before ++ (name.toList ++ (after ++ '>' :: r)) := by
  have hs : s.takeWhile Text.isBlank ++ s.dropWhile Text.isBlank = s :=
    List.takeWhile_append_dropWhile
  have hblank : (s.takeWhile Text.isBlank).all Text.isBlank = true := List.all_takeWhile
  rw [closingTag?_eq] at h
  generalize s.dropWhile Text.isBlank = t at h hs
  split at h
  · rename_i hstart
    obtain ⟨hname, after, hafter, hrest⟩ := exists_of_closingBracket? h
    have ht : t = name.toList ++ (after ++ '>' :: r) := by
      rw [hname, ← hrest, List.takeWhile_append_dropWhile]
    refine ⟨?_, _, after, hblank, hafter, ?_⟩
    · rw [hname]
      cases t with
      | nil => trivial
      | cons c t =>
        rw [List.takeWhile_cons]
        split
        · exact isTagName_takeWhile hstart t
        · trivial
    · rw [← ht, hs]
  · obtain ⟨hname, after, hafter, rfl⟩ := exists_of_closingBracket? h
    rw [hname]
    exact ⟨trivial, _, after, hblank, hafter, hs.symm⟩

/-- **Whatever is read after an angle bracket is written as its kind and name say.** -/
theorem writes_of_lexemeAfter {x r : List Char} {kind : TokenKind} {name : String}
    (h : lexemeAfter (x ++ r) = .ok (some ⟨kind, name, r⟩)) : kind.Writes name ('<' :: x) := by
  have hread := lexemeAfter_eq_some_iff.mp h
  generalize hs : x ++ r = s at hread
  generalize hl : (⟨kind, name, r⟩ : Lexeme) = l at hread
  cases hread with
  | @comment body _ hbody =>
    obtain ⟨rfl, rfl, rfl⟩ := Lexeme.mk.inj hl
    obtain ⟨y, rfl⟩ := commentRest?_mark body hbody
    have hx : x = '!' :: '-' :: '-' :: (y ++ ['-', '-', '>']) := by
      refine List.append_cancel_right (hs.trans ?_)
      simp
    exact ⟨rfl, y, by rw [hx]; rfl⟩
  | @closing body _ n hbody =>
    obtain ⟨rfl, rfl, rfl⟩ := Lexeme.mk.inj hl
    obtain ⟨hname, before, after, hbefore, hafter, rfl⟩ := exists_of_closingTag? hbody
    have hx : x = '/' :: (before ++ (name.toList ++ (after ++ ['>']))) := by
      refine List.append_cancel_right (hs.trans ?_)
      simp
    exact ⟨hname, before, after, hbefore, hafter, by rw [hx]; rfl⟩
  | @fragment _ =>
    obtain ⟨rfl, rfl, rfl⟩ := Lexeme.mk.inj hl
    have hx : x = ['>'] := List.append_cancel_right hs
    subst hx
    exact ⟨trivial, ⟨[], rfl, rfl⟩, by decide⟩
  | @tag c tail _ b hc htag =>
    obtain ⟨rfl, rfl, rfl⟩ := Lexeme.mk.inj hl
    obtain ⟨y, hy⟩ := tagRest_suffix _ htag
    have hbody : y.head?.any isNameRest = false := head?_of_dropWhile hy.symm
    have hx : x = c :: (tail.takeWhile isNameRest ++ (y ++ ['>'])) := by
      refine List.append_cancel_right (hs.trans ?_)
      have htail : tail.takeWhile isNameRest ++ (y ++ '>' :: r) = tail := by
        rw [hy, List.takeWhile_append_dropWhile]
      simp [htail]
    -- the tag's name ends with no slash, and so does every attribute
    have hslash : b = true ↔ ['/', '>'] <:+ '<' :: x := by
      have hw : tail <:+ '<' :: c :: tail := ⟨['<', c], rfl⟩
      have hclear : Clear ('<' :: c :: tail) tail := by
        refine clear_of_suffix ?_ (List.suffix_cons '<' (c :: tail))
        rintro rfl
        exact absurd hc (by decide)
      rw [tagRest_iff_slash _ ((List.dropWhile_suffix _).trans hw)
        (hclear.dropWhile (by decide) hw) htag, ← hs]
      exact (List.suffix_append_self_iff : ['/', '>'] ++ r <:+ ('<' :: x) ++ r ↔ _)
    generalize hn : String.ofList (c :: tail.takeWhile isNameRest) = name
    have hlist : name.toList = c :: tail.takeWhile isNameRest := by
      rw [← hn, String.toList_ofList]
    have hname : IsTagName name.toList := by
      rw [hlist]
      exact isTagName_takeWhile hc tail
    have hpiece : '<' :: x = ['<'] ++ (name.toList ++ (y ++ ['>'])) := by
      rw [hlist, hx]
      rfl
    cases b with
    | true => exact ⟨hname, ⟨y, hbody, hpiece⟩, by simpa using hslash⟩
    | false => exact ⟨hname, ⟨y, hbody, hpiece⟩, by simpa using hslash⟩

end Mdx.Element
