import Mdx.Markdown.Line
import Mdx.Proofs.Element.Tokens

/-!
# Tags without the null character

In a document the null character is replaced (`visible`).  The lexer of embedded markup does not tell it
from its replacement: a tag stays the same tag, of the same name and with the same end
(`lexemeAfter_visible`).
-/

namespace Mdx.Markdown

/-- The character that stands for this one in a document. -/
def visible (c : Char) : Char :=
  if c.toNat = 0 then Char.ofNat 0xfffd else c

theorem normalize_cons {c : Char} (hc : c ≠ '\r') (rest : List Char) :
    normalize (c :: rest) = visible c :: normalize rest := by
  rw [normalize.eq_def]
  split
  next heq => exact absurd (List.cons.inj heq).1 hc
  next heq => exact absurd (List.cons.inj heq).1 hc
  next heq =>
    obtain ⟨rfl, rfl⟩ := List.cons.inj heq
    rfl
  next heq => cases heq

theorem normalize_eq_map {s : List Char} (h : '\r' ∉ s) : normalize s = s.map visible := by
  induction s with
  | nil => rfl
  | cons c rest ih =>
    have hc : c ≠ '\r' := fun hc => h (hc ▸ List.mem_cons_self)
    have hrest : '\r' ∉ rest := fun hr => h (List.mem_cons_of_mem c hr)
    rw [normalize_cons hc, ih hrest, List.map_cons]

theorem visible_cases (c : Char) :
    (c = Char.ofNat 0 ∧ visible c = Char.ofNat 0xfffd) ∨ visible c = c := by
  rw [visible]
  split
  next hc => exact .inl ⟨by rw [← hc, Char.ofNat_toNat], rfl⟩
  · exact .inr rfl

theorem apply_visible {α : Type} (g : Char → α) (h : g (Char.ofNat 0xfffd) = g (Char.ofNat 0))
    (c : Char) : g (visible c) = g c := by
  rcases visible_cases c with ⟨rfl, hc⟩ | hc
  · rw [hc, h]
  · rw [hc]

theorem visible_eq_self {p : Char → Bool} (hnull : p (Char.ofNat 0) = false) {c : Char}
    (h : p c = true) : visible c = c := by
  rcases visible_cases c with ⟨rfl, -⟩ | hc
  · rw [hnull] at h
    cases h
  · exact hc

end Mdx.Markdown

namespace Mdx.Script

open Mdx.Markdown (apply_visible visible visible_eq_self)

theorem beq_visible {c d : Char} (h : (Char.ofNat 0xfffd == d) = (Char.ofNat 0 == d)) :
    (visible c == d) = (c == d) :=
  apply_visible (· == d) h c

theorem map_visible_eq_some {o : Option Char} {d : Char}
    (h : (Char.ofNat 0xfffd == d) = (Char.ofNat 0 == d)) : o.map visible = some d ↔ o = some d := by
  cases o with
  | none => exact ⟨fun hno => (by cases hno), fun hno => (by cases hno)⟩
  | some c =>
    have hbeq : (visible c == d) = (c == d) := beq_visible h
    rw [Option.map_some, Option.some.injEq, Option.some.injEq, ← beq_iff_eq, hbeq, beq_iff_eq]

theorem isQuote_visible (c : Char) : isQuote (visible c) = isQuote c :=
  apply_visible isQuote (by decide) c

theorem closerOf?_visible (c : Char) : closerOf? (visible c) = closerOf? c :=
  apply_visible closerOf? (by decide) c

theorem isCloser_visible (c : Char) : isCloser (visible c) = isCloser c :=
  apply_visible isCloser (by decide) c

theorem head?_visible (s : List Char) {d : Char}
    (h : (Char.ofNat 0xfffd == d) = (Char.ofNat 0 == d)) :
    ((s.map visible).head? == some d) = (s.head? == some d) := by
  rw [List.head?_map, Bool.eq_iff_iff, beq_iff_eq, beq_iff_eq, map_visible_eq_some h]

theorem dropWhile_visible {p : Char → Bool} (hp : ∀ c, p (visible c) = p c) (s : List Char) :
    (s.map visible).dropWhile p = (s.dropWhile p).map visible := by
  have hcomp : p ∘ visible = p := funext hp
  rw [List.dropWhile_map, hcomp]

theorem takeWhile_visible {p : Char → Bool} (hp : ∀ c, p (visible c) = p c) (s : List Char) :
    (s.map visible).takeWhile p = (s.takeWhile p).map visible := by
  have hcomp : p ∘ visible = p := funext hp
  rw [List.takeWhile_map, hcomp]

/-! ### Literals and groups -/

theorem quoteRest_visible {mark : Char}
    (hm : (Char.ofNat 0xfffd == mark) = (Char.ofNat 0 == mark)) (s : List Char) :
    quoteRest mark (s.map visible) = (quoteRest mark s).map visible := by
  induction hn : s.length using Nat.strong_induction_on generalizing s with
  | _ n ih =>
    subst hn
    cases s with
    | nil => rfl
    | cons c rest =>
      rw [List.map_cons, quoteRest_cons, quoteRest_cons, beq_visible (by decide), beq_visible hm,
        beq_visible (by decide), ← List.map_tail]
      split
      · exact ih rest.tail.length (by rw [List.length_tail, List.length_cons]; omega) rest.tail rfl
      · split
        · rfl
        · split
          · rfl
          · exact ih rest.length (Nat.lt_succ_self _) rest rfl

theorem blockCommentRest_visible (s : List Char) :
    blockCommentRest (s.map visible) = (blockCommentRest s).map visible := by
  induction s with
  | nil => rfl
  | cons c rest ih =>
    rw [List.map_cons, blockCommentRest_cons, blockCommentRest_cons, beq_visible (by decide),
      head?_visible rest (by decide), ← List.map_tail, ih]
    split <;> rfl

theorem literalRest?_visible (s : List Char) :
    literalRest? (s.map visible) = (literalRest? s).map (List.map visible) := by
  cases s with
  | nil => rfl
  | cons c rest =>
    rw [List.map_cons, literalRest?_cons, literalRest?_cons, isQuote_visible,
      beq_visible (by decide), head?_visible rest (by decide), head?_visible rest (by decide)]
    split
    next hq =>
      have hmark : (Char.ofNat 0xfffd == c) = (Char.ofNat 0 == c) := by
        simp only [isQuote, Bool.or_eq_true, beq_iff_eq] at hq
        rcases hq with (rfl | rfl) | rfl <;> decide
      rw [visible_eq_self (by decide) hq, quoteRest_visible hmark, Option.map_some]
    · split
      · have hbreak : ∀ c, (visible c != '\n') = (c != '\n') :=
          fun c => congrArg (!·) (beq_visible (by decide))
        rw [← List.map_tail, dropWhile_visible hbreak, Option.map_some]
      · split
        · rw [← List.map_tail, blockCommentRest_visible, Option.map_some]
        · rfl

theorem scanGroup_visible {room : Nat} {stack s r : List Char}
    (h : scanGroup room stack s = .closed r) :
    scanGroup room stack (s.map visible) = .closed (r.map visible) := by
  induction hn : s.length using Nat.strong_induction_on generalizing room stack s with
  | _ n ih =>
    subst hn
    cases s with
    | nil =>
      rw [scanGroup_nil] at h
      cases h
    | cons c rest =>
      cases room with
      | zero =>
        rw [scanGroup] at h
        cases h
      | succ room =>
        rw [List.map_cons]
        have hmap := literalRest?_visible (c :: rest)
        rw [List.map_cons] at hmap
        cases hl : literalRest? (c :: rest) with
        | some after =>
          rw [hl, Option.map_some] at hmap
          rw [scanGroup_literal hl] at h
          rw [scanGroup_literal hmap, List.length_map, List.length_map]
          exact ih after.length (length_lt_of_literalRest? hl) h rfl
        | none =>
          rw [hl, Option.map_none] at hmap
          rw [scanGroup_char hl] at h
          rw [scanGroup_char hmap, closerOf?_visible, isCloser_visible]
          have hrest : rest.length < (c :: rest).length := Nat.lt_succ_self _
          split at h
          · exact ih _ hrest h rfl
          · split at h
            next hcloser =>
              rw [if_pos hcloser]
              split at h
              · cases h
              next top below =>
                rw [visible_eq_self (by decide) hcloser]
                split at h
                · cases h
                next htop =>
                  rw [if_neg htop]
                  split at h
                  next hbelow =>
                    cases h
                    rw [if_pos hbelow]
                  next hbelow =>
                    rw [if_neg hbelow]
                    exact ih _ hrest h rfl
            next hcloser =>
              rw [if_neg hcloser]
              exact ih _ hrest h rfl

theorem groupRest?_visible {s r : List Char} (h : groupRest? s = some r) :
    groupRest? (s.map visible) = some (r.map visible) := by
  unfold groupRest? at h ⊢
  split at h
  next heq =>
    cases h
    rw [List.length_map, scanGroup_visible heq]
  · cases h

end Mdx.Script

namespace Mdx.Element

open Mdx.Markdown (apply_visible visible visible_eq_self)
open Mdx.Script (beq_visible dropWhile_visible groupRest? groupRest?_visible head?_visible
  map_visible_eq_some takeWhile_visible)

theorem isBlank_visible (c : Char) : Text.isBlank (visible c) = Text.isBlank c :=
  apply_visible Text.isBlank (by decide) c

theorem isNameStart_visible (c : Char) : isNameStart (visible c) = isNameStart c :=
  apply_visible isNameStart (by decide) c

theorem isNameRest_visible (c : Char) : isNameRest (visible c) = isNameRest c :=
  apply_visible isNameRest (by decide +kernel) c

theorem isAttributeChar_visible (c : Char) : isAttributeChar (visible c) = isAttributeChar c :=
  apply_visible isAttributeChar (by decide) c

theorem isUnquotedChar_visible (c : Char) : isUnquotedChar (visible c) = isUnquotedChar c :=
  apply_visible isUnquotedChar (by decide) c

/-! ### Tags -/

theorem valueRest_visible {name : String} {s r : List Char} (h : valueRest name s = .ok r) :
    valueRest name (s.map visible) = .ok (r.map visible) := by
  cases s with
  | nil => simp [valueRest] at h
  | cons c rest =>
    rw [List.map_cons]
    by_cases hq : (c == '\x22' || c == '\x27') = true
    · have hself : visible c = c ∧ ∀ d, (visible d != c) = (d != c) := by
        simp only [Bool.or_eq_true, beq_iff_eq] at hq
        rcases hq with rfl | rfl
        · exact ⟨by decide, fun d => congrArg (!·) (beq_visible (by decide))⟩
        · exact ⟨by decide, fun d => congrArg (!·) (beq_visible (by decide))⟩
      rw [valueRest, if_pos hq] at h
      rw [hself.1, valueRest, if_pos hq, dropWhile_visible hself.2]
      split at h
      · cases h
      next heq =>
        cases h
        rw [heq]
        rfl
    have hq' : (visible c == '\x22' || visible c == '\x27') = (c == '\x22' || c == '\x27') := by
      rw [beq_visible (by decide), beq_visible (by decide)]
    by_cases hb : (c == '\x7b') = true
    · rw [valueRest, if_neg hq, if_pos hb] at h
      rw [valueRest, hq', if_neg hq, beq_visible (by decide), if_pos hb]
      split at h
      next heq =>
        cases h
        have hmap := groupRest?_visible heq
        rw [List.map_cons] at hmap
        rw [hmap]
      · cases h
    rw [valueRest_unquoted (by simpa using hq) (by simpa using hb)] at h
    rw [valueRest_unquoted (by rw [hq']; simpa using hq)
      (by rw [beq_visible (by decide)]; simpa using hb), ← List.map_cons,
      takeWhile_visible isUnquotedChar_visible, dropWhile_visible isUnquotedChar_visible]
    have hslash : ∀ x : List Char, (x.map visible).getLast? = some '/' ↔ x.getLast? = some '/' := by
      intro x
      rw [List.getLast?_map, map_visible_eq_some (by decide)]
    have hend : ∀ x : List Char, (x.map visible).head? = some '>' ↔ x.head? = some '>' := by
      intro x
      rw [List.head?_map, map_visible_eq_some (by decide)]
    simp only [List.map_eq_nil_iff, hslash, hend] at h ⊢
    split at h
    · cases h
    next hne =>
      rw [if_neg hne]
      split at h
      next hlast =>
        cases h
        rw [if_pos hlast]
        rfl
      next hlast =>
        cases h
        rw [if_neg hlast]

theorem attributeRest_visible {name : String} {c : Char} {rest r : List Char}
    (h : attributeRest name c rest = .ok r) :
    attributeRest name (visible c) (rest.map visible) = .ok (r.map visible) := by
  rw [attributeRest] at h ⊢
  rw [beq_visible (by decide), isAttributeChar_visible]
  split at h
  next hb =>
    rw [if_pos hb]
    split at h
    next heq =>
      cases h
      have hmap := groupRest?_visible heq
      rw [List.map_cons] at hmap
      rw [hmap]
    · cases h
  next hb =>
    rw [if_neg hb]
    split at h
    next ha =>
      rw [if_pos ha]
      dsimp only at h ⊢
      rw [dropWhile_visible isAttributeChar_visible, dropWhile_visible isBlank_visible,
        head?_visible _ (by decide)]
      split at h
      next heq =>
        rw [if_pos heq, ← List.map_tail, dropWhile_visible isBlank_visible]
        exact valueRest_visible h
      next heq =>
        cases h
        rw [if_neg heq]
    · cases h

theorem tagRest_visible {name : String} {start r : List Char} {b : Bool} (start' : List Char) :
    ∀ s : List Char, tagRest name start s = .ok (b, r) →
      tagRest name start' (s.map visible) = .ok (b, r.map visible) := by
  intro s
  induction hn : s.length using Nat.strong_induction_on generalizing s with
  | _ n ih =>
    subst hn
    intro h
    have hle := (List.dropWhile_suffix (l := s) Text.isBlank).length_le
    rw [tagRest_eq] at h ⊢
    rw [dropWhile_visible isBlank_visible]
    cases hd : s.dropWhile Text.isBlank with
    | nil =>
      rw [hd] at h
      cases h
    | cons c rest =>
      rw [hd] at h hle
      simp only [List.map_cons] at h ⊢
      rw [beq_visible (by decide), head?_visible rest (by decide), beq_visible (by decide)]
      split at h
      next hslash =>
        cases h
        rw [if_pos hslash, List.map_tail]
      next hslash =>
        rw [if_neg hslash]
        split at h
        next hend =>
          cases h
          rw [if_pos hend]
        next hend =>
          rw [if_neg hend]
          split at h
          · cases h
          next next ha =>
            rw [attributeRest_visible ha]
            have hlt := (attributeRest_suffix ha).length_le
            rw [List.length_cons] at hle
            exact ih next.length (by omega) next rfl h

theorem map_visible_takeWhile (s : List Char) :
    (s.takeWhile isNameRest).map visible = s.takeWhile isNameRest := by
  refine (List.map_congr_left fun c hc => ?_).trans (List.map_id _)
  exact visible_eq_self (by decide +kernel) (List.mem_takeWhile_imp hc)

theorem closingBracket?_visible {name rest r : List Char} {n : String}
    (h : closingBracket? name rest = some (n, r)) :
    closingBracket? name (rest.map visible) = some (n, r.map visible) := by
  rw [closingBracket?] at h ⊢
  rw [dropWhile_visible isBlank_visible]
  split at h
  next heq =>
    cases h
    rw [heq]
    rfl
  · cases h

theorem closingTag?_visible {s r : List Char} {name : String}
    (h : closingTag? s = some (name, r)) :
    closingTag? (s.map visible) = some (name, r.map visible) := by
  rw [closingTag?_eq] at h ⊢
  have hhead : ((s.dropWhile Text.isBlank).map visible).head?.any isNameStart =
      (s.dropWhile Text.isBlank).head?.any isNameStart := by
    rw [List.head?_map, Option.any_map]
    exact congrArg (fun p => (s.dropWhile Text.isBlank).head?.any p) (funext isNameStart_visible)
  rw [dropWhile_visible isBlank_visible, hhead, takeWhile_visible isNameRest_visible,
    map_visible_takeWhile, dropWhile_visible isNameRest_visible]
  split at h
  next hname =>
    rw [if_pos hname]
    exact closingBracket?_visible h
  next hname =>
    rw [if_neg hname]
    exact closingBracket?_visible h

/-- **A tag is the same tag without the null character.** -/
theorem lexemeAfter_visible {s r : List Char} {kind : TokenKind} {name : String}
    (h : lexemeAfter s = .ok (some ⟨kind, name, r⟩)) (hkind : kind ≠ .comment) :
    lexemeAfter (s.map visible) = .ok (some ⟨kind, name, r.map visible⟩) := by
  rw [lexemeAfter_eq_some_iff] at h ⊢
  generalize hl : (⟨kind, name, r⟩ : Lexeme) = l at h
  cases h with
  | comment h =>
    obtain ⟨rfl, -, -⟩ := Lexeme.mk.inj hl
    exact absurd rfl hkind
  | closing h =>
    obtain ⟨rfl, rfl, rfl⟩ := Lexeme.mk.inj hl
    exact .closing (closingTag?_visible h)
  | fragment =>
    obtain ⟨rfl, rfl, rfl⟩ := Lexeme.mk.inj hl
    exact .fragment
  | @tag c tail r b hc h =>
    obtain ⟨rfl, rfl, rfl⟩ := Lexeme.mk.inj hl
    have hself : visible c = c := visible_eq_self (by decide) hc
    have hname : (tail.map visible).takeWhile isNameRest = tail.takeWhile isNameRest := by
      rw [takeWhile_visible isNameRest_visible, map_visible_takeWhile]
    have htag := tagRest_visible ('<' :: c :: tail.map visible) _ h
    rw [← dropWhile_visible isNameRest_visible] at htag
    rw [List.map_cons, hself, ← hname]
    rw [← hname] at htag
    exact .tag hc htag

end Mdx.Element
