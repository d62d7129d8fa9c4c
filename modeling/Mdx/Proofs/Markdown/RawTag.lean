import Mdx.Proofs.Element.Tag
import Mdx.Proofs.Markdown.Paragraph

/-!
# Raw tags in running text

The grammar of raw markup reads attributes with alternatives, since some blanks may be part of a value or
come before it.  A tag ends with a closing angle bracket, so text after it that has no such bracket gives
no way of reading it that was not there before: the tag is read the same in front of such a text
(`rawInlineRest?_append`).

What stands between the brackets of a raw tag is no address (`autolinkAddress?_eq_none`).
-/

namespace Mdx.Markdown


/-! ### Where the alternatives begin -/

theorem after?_suffix {needle s r : List Char} (h : after? needle s = some r) : r <:+ s := by
  induction s with
  | nil => cases h
  | cons c rest ih =>
    rw [after?] at h
    split at h
    · cases h
      exact List.drop_suffix _ _
    · exact (ih h).trans (List.suffix_cons c rest)

theorem suffix_of_mem_valueRests {s r : List Char} (h : r ∈ valueRests s) : r <:+ s := by
  cases s with
  | nil => cases h
  | cons c rest =>
    rw [valueRests] at h
    split at h
    · exact (after?_suffix (Option.mem_toList.mp h)).trans (List.suffix_cons c rest)
    · obtain ⟨i, -, rfl⟩ := List.mem_map.mp h
      exact List.drop_suffix _ _

theorem suffix_of_mem_attrRests {s r : List Char} (h : r ∈ attrRests s) : r <:+ s := by
  rw [attrRests] at h
  split at h
  next rest heq =>
    obtain ⟨i, -, hr⟩ := List.mem_flatMap.mp h
    have hrest : rest <:+ s :=
      (List.suffix_cons '=' rest).trans (heq ▸ List.dropWhile_suffix Text.isBlank)
    exact (suffix_of_mem_valueRests hr).trans ((List.drop_suffix i rest).trans hrest)
  · obtain rfl := List.mem_singleton.mp h
    exact List.suffix_rfl

/-- **A tag without a closing bracket is none.** -/
theorem openTagRest?_eq_none {s : List Char} (h : '>' ∉ s) (room : Nat) :
    openTagRest? room s = none := by
  induction room generalizing s with
  | zero => rfl
  | succ room ih =>
    have hdrop := List.dropWhile_suffix (l := s) Text.isBlank
    rw [openTagRest?]
    split
    next heq => exact absurd (hdrop.subset (heq ▸ List.mem_cons_self)) h
    next heq =>
      exact absurd (hdrop.subset (heq ▸ List.mem_cons_of_mem '/' List.mem_cons_self)) h
    next c rest _ _ heq =>
      split
      · refine List.findSome?_eq_none_iff.mpr fun x hx => ih fun hmem => h ?_
        have hx := (suffix_of_mem_attrRests hx).trans (List.dropWhile_suffix isAttrChar)
        exact hdrop.subset (heq ▸ List.mem_cons_of_mem c (hx.subset hmem))
      · rfl
    · rfl

/-! ### Text after a tag -/

variable {u : List Char}

theorem after?_eq_none {q : Char} (hq : q ∉ u) : after? [q] u = none := by
  induction u with
  | nil => rfl
  | cons d u ih =>
    have hd : ¬[q].isPrefixOf (d :: u) = true := by
      intro hpre
      have hqd : q = d := by simpa using hpre
      exact hq (hqd ▸ List.mem_cons_self)
    rw [after?, if_neg hd]
    exact ih fun hmem => hq (List.mem_cons_of_mem d hmem)

theorem after?_append {q : Char} (hq : q ∉ u) (s : List Char) :
    after? [q] (s ++ u) = (after? [q] s).map (· ++ u) := by
  induction s with
  | nil => exact after?_eq_none hq
  | cons c rest ih =>
    rw [List.cons_append, after?, after?]
    have hpre : [q].isPrefixOf (c :: (rest ++ u)) = [q].isPrefixOf (c :: rest) := by
      simp [List.isPrefixOf]
    rw [hpre]
    split
    · rfl
    · exact ih

theorem valueRests_append (hdouble : '\x22' ∉ u) (hsingle : '\x27' ∉ u) {s : List Char}
    (h : '>' ∈ s) : valueRests (s ++ u) = (valueRests s).map (· ++ u) := by
  cases s with
  | nil => cases h
  | cons c rest =>
    rw [List.cons_append, valueRests, valueRests]
    split
    next hquote =>
      have hc : c ∉ u := by
        rcases (Bool.or_eq_true _ _).mp hquote with hc | hc
        · exact (beq_iff_eq.mp hc) ▸ hdouble
        · exact (beq_iff_eq.mp hc) ▸ hsingle
      rw [after?_append hc]
      cases after? [c] rest <;> rfl
    · rw [bareRests, bareRests, ← List.cons_append,
        takeWhile_append_of_mem (by decide) h, List.map_map]
      refine List.map_congr_left fun i hi => ?_
      have hlen := (List.takeWhile_prefix (l := c :: rest) isBareChar).length_le
      rw [List.mem_reverse, List.mem_range] at hi
      exact List.drop_append_of_le_length (by omega)

theorem spacedValueRests_append (hdouble : '\x22' ∉ u) (hsingle : '\x27' ∉ u) {s : List Char}
    (h : '>' ∈ s) : spacedValueRests (s ++ u) = (spacedValueRests s).map (· ++ u) := by
  rw [spacedValueRests, spacedValueRests, takeWhile_append_of_mem (by decide) h, List.map_flatMap]
  refine List.flatMap_congr fun i hi => ?_
  rw [List.mem_reverse, List.mem_range, Nat.lt_succ_iff] at hi
  -- the blanks before the value are no brackets
  have hdrop : s.drop i = (s.takeWhile Text.isBlank).drop i ++ s.dropWhile Text.isBlank := by
    conv_lhs => rw [← List.takeWhile_append_dropWhile (p := Text.isBlank) (l := s)]
    exact List.drop_append_of_le_length hi
  have hmem : '>' ∈ s.drop i := by
    rw [hdrop]
    exact List.mem_append_right _ (mem_dropWhile (by decide) h)
  have hlen := (List.takeWhile_prefix (l := s) Text.isBlank).length_le
  rw [List.drop_append_of_le_length (by omega), valueRests_append hdouble hsingle hmem]

theorem attrRests_append (hdouble : '\x22' ∉ u) (hsingle : '\x27' ∉ u) {s : List Char}
    (h : '>' ∈ s) : attrRests (s ++ u) = (attrRests s).map (· ++ u) := by
  have hmem := mem_dropWhile (p := Text.isBlank) (by decide) h
  rw [attrRests.eq_def, attrRests.eq_def, dropWhile_append_of_mem (by decide) h]
  cases hd : s.dropWhile Text.isBlank with
  | nil =>
    rw [hd] at hmem
    cases hmem
  | cons d rest =>
    rw [hd] at hmem
    rw [List.cons_append]
    by_cases heq : d = '='
    · subst heq
      have hrest : '>' ∈ rest := (List.mem_cons.mp hmem).resolve_left (by decide)
      exact spacedValueRests_append hdouble hsingle hrest
    · simp [heq]

/-- A search among alternatives finds the same one after another text is added to all. -/
theorem findSome?_append {alternatives : List (List Char)} {f g : List Char → Option (List Char)}
    (h : ∀ x ∈ alternatives, g (x ++ u) = (f x).map (· ++ u)) :
    (alternatives.map (· ++ u)).findSome? g = (alternatives.findSome? f).map (· ++ u) := by
  induction alternatives with
  | nil => rfl
  | cons x rest ih =>
    obtain ⟨hx, hrest⟩ := List.forall_mem_cons.mp h
    rw [List.map_cons, List.findSome?_cons, List.findSome?_cons, hx]
    cases f x with
    | none => exact ih hrest
    | some r => rfl

/-- A tag that its bracket does not close here closes itself, or has one attribute more. -/
theorem openTagRest?_step {s rest : List Char} {c : Char} (hd : s.dropWhile Text.isBlank = c :: rest)
    (hc : c ≠ '>') (room : Nat) :
    openTagRest? (room + 1) s =
      if c == '/' && rest.head? == some '>' then some rest.tail
      else if isAttrStart c && decide (rest.length + 1 < s.length) then
        (attrRests (rest.dropWhile isAttrChar)).findSome? (openTagRest? room)
      else none := by
  rw [openTagRest?, hd]
  by_cases hslash : c = '/'
  · subst hslash
    cases rest with
    | nil => rfl
    | cons d rest =>
      by_cases hclose : d = '>'
      · subst hclose
        rfl
      · simp [hclose, isAttrStart]
  · simp [hslash]

/-- **A tag is read the same in front of a text that cannot end it.** -/
theorem openTagRest?_append (hend : '>' ∉ u) (hdouble : '\x22' ∉ u) (hsingle : '\x27' ∉ u) :
    ∀ (s : List Char) {room room' : Nat}, s.length < room → s.length < room' →
      openTagRest? room' (s ++ u) = (openTagRest? room s).map (· ++ u) := by
  intro s
  induction hn : s.length using Nat.strong_induction_on generalizing s with
  | _ n ih =>
    subst hn
    intro room room' hroom hroom'
    by_cases hmem : '>' ∈ s
    · obtain ⟨room, rfl⟩ := Nat.exists_eq_succ_of_ne_zero (Nat.ne_of_gt (Nat.zero_lt_of_lt hroom))
      obtain ⟨room', rfl⟩ := Nat.exists_eq_succ_of_ne_zero (Nat.ne_of_gt (Nat.zero_lt_of_lt hroom'))
      have hdrop := mem_dropWhile (p := Text.isBlank) (by decide) hmem
      have hle := (List.dropWhile_suffix (l := s) Text.isBlank).length_le
      have happend := dropWhile_append_of_mem (p := Text.isBlank) (by decide) hmem u
      cases hd : s.dropWhile Text.isBlank with
      | nil =>
        rw [hd] at hdrop
        cases hdrop
      | cons c rest =>
        rw [hd] at hdrop hle happend
        rw [List.length_cons] at hle
        rw [List.cons_append] at happend
        by_cases hc : c = '>'
        · subst hc
          rw [openTagRest?, openTagRest?, hd, happend]
          rfl
        have hrest : '>' ∈ rest := (List.mem_cons.mp hdrop).resolve_left (Ne.symm hc)
        have hne : rest ≠ [] := List.ne_nil_of_mem hrest
        have hshort : decide ((rest ++ u).length + 1 < (s ++ u).length) =
            decide (rest.length + 1 < s.length) := by
          rw [List.length_append, List.length_append]
          exact decide_eq_decide.mpr (by omega)
        rw [openTagRest?_step happend hc, openTagRest?_step hd hc, List.head?_append_of_ne_nil _ hne,
          List.tail_append_of_ne_nil hne, hshort, dropWhile_append_of_mem (by decide) hrest]
        split
        · rfl
        split
        · have hvalue := mem_dropWhile (p := isAttrChar) (by decide) hrest
          rw [attrRests_append hdouble hsingle hvalue]
          refine findSome?_append fun x hx => ?_
          have hx := (suffix_of_mem_attrRests hx).length_le
          have hattr := (List.dropWhile_suffix (l := rest) isAttrChar).length_le
          exact ih x.length (by omega) x rfl (by omega) (by omega)
        · rfl
    · have hall : '>' ∉ s ++ u := by
        rw [List.mem_append]
        exact not_or.mpr ⟨hmem, hend⟩
      rw [openTagRest?_eq_none hmem, openTagRest?_eq_none hall]
      rfl

theorem closeTagRest?_append {s r : List Char} (h : closeTagRest? s = some r) :
    closeTagRest? (s ++ u) = some (r ++ u) := by
  cases s with
  | nil => cases h
  | cons c rest =>
    rw [closeTagRest?] at h
    rw [List.cons_append, closeTagRest?]
    split at h
    next hc =>
      rw [if_pos hc]
      split at h
      next after heq =>
        cases h
        have hblank : '>' ∈ rest.dropWhile isTagChar :=
          (List.dropWhile_suffix Text.isBlank).subset (heq ▸ List.mem_cons_self)
        have hmem : '>' ∈ rest := (List.dropWhile_suffix isTagChar).subset hblank
        rw [dropWhile_append_of_mem (by decide) hmem, dropWhile_append_of_mem (by decide) hblank, heq]
        rfl
      · cases h
    · cases h

theorem rawInlineRest?_openTag {c : Char} {rest : List Char} (hc : c.isAlpha = true) :
    rawInlineRest? ('<' :: c :: rest) =
      openTagRest? (rest.length + 1) (rest.dropWhile isTagChar) := by
  have hslash : c ≠ '/' := ne_of_isAlpha hc (by decide)
  have hquery : c ≠ '?' := ne_of_isAlpha hc (by decide)
  have hbang : c ≠ '!' := ne_of_isAlpha hc (by decide)
  simp [rawInlineRest?, hbang, hc]

/-- What a raw tag may be, if it is no instruction, declaration or section. -/
theorem rawInlineRest?_cases {c : Char} {rest r : List Char} (hquery : c ≠ '?') (hbang : c ≠ '!')
    (h : rawInlineRest? ('<' :: c :: rest) = some r) : c = '/' ∨ c.isAlpha = true := by
  by_cases hslash : c = '/'
  · exact Or.inl hslash
  · by_cases hc : c.isAlpha = true
    · exact Or.inr hc
    · simp [rawInlineRest?, hbang, hc] at h

/-- **A raw tag is read the same in front of a text that cannot end it.** -/
theorem rawInlineRest?_append {c : Char} {rest r : List Char} (hquery : c ≠ '?') (hbang : c ≠ '!')
    (hend : '>' ∉ u) (hdouble : '\x22' ∉ u) (hsingle : '\x27' ∉ u)
    (h : rawInlineRest? ('<' :: c :: rest) = some r) :
    rawInlineRest? ('<' :: c :: (rest ++ u)) = some (r ++ u) := by
  rcases rawInlineRest?_cases hquery hbang h with rfl | hc
  · exact closeTagRest?_append h
  · rw [rawInlineRest?_openTag hc] at h ⊢
    have hdrop : '>' ∈ rest.dropWhile isTagChar := by
      by_contra hmem
      rw [openTagRest?_eq_none hmem] at h
      cases h
    have hmem : '>' ∈ rest := (List.dropWhile_suffix isTagChar).subset hdrop
    have hle := (List.dropWhile_suffix (l := rest) isTagChar).length_le
    rw [dropWhile_append_of_mem (by decide) hmem,
      openTagRest?_append hend hdouble hsingle _ (Nat.lt_succ_of_le hle)
        (by rw [List.length_append]; omega), h]
    rfl

/-! ### No tag is an address -/

/-- A character of a tag up to the end of its name. -/
def isHeadChar (c : Char) : Bool :=
  isTagChar c || c == '/'

/-- A text that starts with the name of a tag, which a blank ends if there is more. -/
def StartsAsTag (s : List Char) : Prop :=
  ∃ c name more, s = c :: (name ++ more) ∧ (c :: name).all isHeadChar = true ∧
    ∀ d ∈ more.head?, Text.isBlank d = true

theorem isBlank_eq_false_of_isAlphanum {d : Char} (h : d.isAlphanum = true) : Text.isBlank d = false := by
  have hrange : 48 ≤ d.toNat ∧ d.toNat ≤ 122 := by
    rcases (Bool.or_eq_true _ _).mp h with h | h
    · have := toNat_of_isAlpha h
      omega
    · have := toNat_of_isDigit h
      omega
  by_contra hblank
  simp only [Text.isBlank, Bool.not_eq_false, Bool.or_eq_true, Bool.and_eq_true, decide_eq_true_eq,
    beq_iff_eq] at hblank
  omega

/-- Up to the first blank, such a text has characters of a tag's name only. -/
theorem StartsAsTag.isHeadChar_or_isBlank {x y : List Char} {d : Char} (h : StartsAsTag (x ++ d :: y))
    (hx : x.all (!Text.isBlank ·) = true) : (isHeadChar d || Text.isBlank d) = true := by
  obtain ⟨c, name, more, heq, hname, hmore⟩ := h
  rw [← List.cons_append] at heq
  rw [Bool.or_eq_true]
  rcases List.append_eq_append_iff.mp heq with ⟨z, hz, hd⟩ | ⟨z, rfl, rfl⟩
  · cases z with
    | nil =>
      rw [List.nil_append] at hd
      exact Or.inr (hmore d (hd ▸ rfl))
    | cons e z =>
      cases hd
      exact Or.inl (List.all_eq_true.mp hname d (hz ▸ by simp))
  · cases z with
    | nil => exact Or.inr (hmore d rfl)
    | cons e z =>
      have he : (!Text.isBlank e) = true := List.all_eq_true.mp hx e (by simp)
      rw [hmore e rfl] at he
      cases he

theorem isAutolink_eq_false {s : List Char} (h : StartsAsTag s) : isAutolink s = false := by
  rw [isAutolink.eq_def]
  split
  · rfl
  next c tail =>
    dsimp only
    rw [drop_length_takeWhile]
    split
    next rest heq =>
      by_contra hlink
      simp only [Bool.not_eq_false, Bool.and_eq_true] at hlink
      rw [← List.takeWhile_append_dropWhile (l := tail), heq, ← List.cons_append] at h
      have hcolon := h.isHeadChar_or_isBlank (List.all_eq_true.mpr fun e he => ?_)
      · exact absurd hcolon (by decide)
      rcases List.mem_cons.mp he with rfl | he
      · rw [isBlank_eq_false_of_isAlphanum (Bool.or_eq_true_iff.mpr (Or.inl hlink.1.1.1))]
        rfl
      · have hscheme := List.all_eq_true.mp List.all_takeWhile e he
        simp only [Bool.or_eq_true, beq_iff_eq] at hscheme
        rcases hscheme with ((hscheme | rfl) | rfl) | rfl
        · rw [isBlank_eq_false_of_isAlphanum hscheme]
          rfl
        all_goals decide
    · rfl

theorem isMailAddress_eq_false {s : List Char} (h : StartsAsTag s) : isMailAddress s = false := by
  rw [isMailAddress, drop_length_takeWhile]
  split
  next d domain heq =>
    by_contra hmail
    simp only [Bool.not_eq_false, Bool.and_eq_true] at hmail
    have hd : d = '@' := by
      have := List.head?_dropWhile_not (· != '@') s
      simpa [heq] using this
    rw [← List.takeWhile_append_dropWhile (p := (· != '@')) (l := s), heq, hd] at h
    have hat := h.isHeadChar_or_isBlank (List.all_eq_true.mpr fun e he => ?_)
    · exact absurd hat (by decide)
    have hname := List.all_eq_true.mp hmail.1.2 e he
    rcases Bool.or_eq_true_iff.mp hname with hname | hname
    · rw [isBlank_eq_false_of_isAlphanum hname]
      rfl
    · have hsigns : ".!#$%&'*+/=?^_\x60\x7b|\x7d~-".toList.all (!Text.isBlank ·) = true := by decide
      exact List.all_eq_true.mp hsigns e (List.contains_iff_mem.mp hname)
  · rfl

theorem StartsAsTag.withoutBreak {s : List Char} (h : StartsAsTag s) :
    StartsAsTag (Markdown.withoutBreak s) := by
  obtain ⟨c, name, more, rfl, hname, hmore⟩ := h
  rw [Markdown.withoutBreak]
  split
  next hlast =>
    cases more with
    | nil =>
      rw [List.append_nil] at hlast
      exact absurd (List.all_eq_true.mp hname _ (List.mem_of_getLast? hlast)) (by decide)
    | cons d more =>
      refine ⟨c, name, (d :: more).dropLast, ?_, hname, ?_⟩
      · rw [← List.cons_append, List.dropLast_append_of_ne_nil (List.cons_ne_nil d more)]
        rfl
      · cases more with
        | nil => simp
        | cons e more => exact hmore
  · exact ⟨c, name, more, rfl, hname, hmore⟩

theorem StartsAsTag.autolinkAddress? {s : List Char} (h : StartsAsTag s) :
    Markdown.autolinkAddress? s = none := by
  rw [Markdown.autolinkAddress?, isAutolink_eq_false h.withoutBreak,
    isMailAddress_eq_false h.withoutBreak]
  rfl

theorem exists_of_angled? {before s url : List Char} (h : angled? before s = some url) :
    ∃ inner rest, s = inner ++ '>' :: rest ∧ '>' ∉ inner ∧ url = before.reverse ++ inner := by
  induction s generalizing before with
  | nil => cases h
  | cons c s ih =>
    rw [angled?] at h
    split at h
    · cases h
    split at h
    next hc =>
      cases h
      exact ⟨[], s, by rw [beq_iff_eq.mp hc]; rfl, List.not_mem_nil, (List.append_nil _).symm⟩
    next hc =>
      obtain ⟨inner, rest, rfl, hinner, rfl⟩ := ih h
      refine ⟨c :: inner, rest, rfl, ?_, by rw [List.reverse_cons, List.append_assoc]; rfl⟩
      rintro (_ | ⟨_, hmem⟩)
      · exact hc (by decide)
      · exact hinner hmem

theorem cons_of_dropWhile_isBlank {x r : List Char} (h : x.dropWhile Text.isBlank = '>' :: r) :
    ∃ d post, x = d :: post ∧ (d = '>' ∨ Text.isBlank d = true) := by
  cases x with
  | nil => cases h
  | cons d post =>
    by_cases hd : Text.isBlank d = true
    · exact ⟨d, post, rfl, Or.inr hd⟩
    · rw [List.dropWhile_cons_of_neg hd] at h
      exact ⟨d, post, rfl, Or.inl (List.cons.inj h).1⟩

/-- The name of a tag ends with a blank, with the tag, or with the slash that closes it. -/
theorem exists_of_openTagRest? {room : Nat} {x r : List Char} (h : openTagRest? room x = some r) :
    ∃ slash d post, x = slash ++ d :: post ∧ slash.all isHeadChar = true ∧
      (d = '>' ∨ Text.isBlank d = true) := by
  cases room with
  | zero => cases h
  | succ room =>
    cases x with
    | nil => cases h
    | cons d post =>
      by_cases hblank : Text.isBlank d = true
      · exact ⟨[], d, post, rfl, rfl, Or.inr hblank⟩
      by_cases hend : d = '>'
      · exact ⟨[], d, post, rfl, rfl, Or.inl hend⟩
      rw [openTagRest?_step (List.dropWhile_cons_of_neg hblank) hend] at h
      split at h
      next hslash =>
        rw [Bool.and_eq_true, beq_iff_eq, beq_iff_eq] at hslash
        obtain ⟨post, rfl⟩ := List.head?_eq_some_iff.mp hslash.2
        exact ⟨[d], '>', post, rfl, by rw [hslash.1]; decide, Or.inl rfl⟩
      · simp at h

/-- **A tag is the characters of its name, and then it ends or a blank follows.** -/
theorem exists_of_rawInlineRest? {c : Char} {rest r : List Char} (hquery : c ≠ '?') (hbang : c ≠ '!')
    (h : rawInlineRest? ('<' :: c :: rest) = some r) :
    ∃ name d post, rest = name ++ d :: post ∧ (c :: name).all isHeadChar = true ∧
      (d = '>' ∨ Text.isBlank d = true) := by
  have hhead {e : Char} (he : e.isAlpha = true) : isHeadChar e = true := by
    simp [isHeadChar, isTagChar, Char.isAlphanum, he]
  have htake (s : List Char) : (s.takeWhile isTagChar).all isHeadChar = true :=
    List.all_eq_true.mpr fun e he =>
      Bool.or_eq_true_iff.mpr (Or.inl (List.all_eq_true.mp List.all_takeWhile e he))
  rcases rawInlineRest?_cases hquery hbang h with rfl | hc
  · change closeTagRest? rest = some r at h
    cases rest with
    | nil => cases h
    | cons e rest =>
      rw [closeTagRest?] at h
      split at h
      next he =>
        split at h
        next after hafter =>
          obtain ⟨d, post, hdrop, hd⟩ := cons_of_dropWhile_isBlank hafter
          refine ⟨e :: rest.takeWhile isTagChar, d, post, ?_, ?_, hd⟩
          · rw [List.cons_append, ← hdrop, List.takeWhile_append_dropWhile]
          · rw [List.all_cons, List.all_cons, hhead he, htake]
            decide
        · cases h
      · cases h
  · rw [rawInlineRest?_openTag hc] at h
    obtain ⟨slash, d, post, hdrop, hslash, hd⟩ := exists_of_openTagRest? h
    refine ⟨rest.takeWhile isTagChar ++ slash, d, post, ?_, ?_, hd⟩
    · rw [List.append_assoc, ← hdrop, List.takeWhile_append_dropWhile]
    · rw [List.all_cons, List.all_append, hhead hc, htake, hslash]
      rfl

/-- **What stands between the brackets of a raw tag is no address.** -/
theorem autolinkAddress?_eq_none {c : Char} {rest r url : List Char} (hquery : c ≠ '?')
    (hbang : c ≠ '!') (h : rawInlineRest? ('<' :: c :: rest) = some r)
    (hurl : angled? [] (c :: rest) = some url) : autolinkAddress? url = none := by
  obtain ⟨name, d, post, rfl, hname, hd⟩ := exists_of_rawInlineRest? hquery hbang h
  obtain ⟨inner, after, heq, hinner, rfl⟩ := exists_of_angled? hurl
  rw [← List.cons_append] at heq
  rcases List.append_eq_append_iff.mp heq with ⟨z, rfl, hz⟩ | ⟨z, hz, hpost⟩
  · refine StartsAsTag.autolinkAddress? ⟨c, name, z, rfl, hname, ?_⟩
    cases z with
    | nil => simp
    | cons e z =>
      cases hz
      intro e' he'
      cases he'
      exact hd.resolve_left fun hend => hinner (hend ▸ by simp)
  · cases z with
    | nil =>
      rw [List.append_nil] at hz
      exact StartsAsTag.autolinkAddress? ⟨c, name, [], by rw [← hz, List.append_nil], hname, by simp⟩
    | cons e z =>
      cases hpost
      exact absurd (List.all_eq_true.mp hname '>' (hz ▸ by simp)) (by decide)

end Mdx.Markdown
