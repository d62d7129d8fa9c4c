import Mdx.Proofs.Fault.Result
import Mdx.Proofs.Generic.Lines
import Mdx.Proofs.Script.Run

/-!
# Statements and line endings

Two texts have the `SameLines` if they differ in their line endings only: where the first one has a line
feed, the second has one with or without a carriage return before it.  The scanners of script code do the
same on both, up to such a difference, unless they meet a backslash right before a line feed of the first
text: in a quote it takes the line feed along, and of the other ending the carriage return only.

* A literal, a statement and a run of statements end at the same place of both (`sameLines_quoteRest`,
  `alike_statementRest`, `alike_statementRun`).
* The line feed at which a run ends does not end an empty line (`follows_statementRun`).
-/

namespace Mdx.Script

/-- The texts are the same, but for carriage returns before the line feeds of the second. -/
inductive SameLines : List Char → List Char → Prop
  | nil : SameLines [] []
  | char {c : Char} {s t : List Char} (hr : c ≠ '\r') (hn : c ≠ '\n') (h : SameLines s t) :
      SameLines (c :: s) (c :: t)
  | feed {s t : List Char} (h : SameLines s t) : SameLines ('\n' :: s) ('\n' :: t)
  | pair {s t : List Char} (h : SameLines s t) : SameLines ('\n' :: s) ('\r' :: '\n' :: t)

/-- No backslash stands right before a line feed in the text `s` up to where its rest is `r`. -/
def UnbrokenTo (r s : List Char) : Prop :=
  ∀ w : List Char, s = w ++ r → ¬['\\', '\n'] <:+: w

namespace UnbrokenTo

variable {r s : List Char}

theorem of_suffix (h : UnbrokenTo r s) {u : List Char} (hu : u <:+ s) : UnbrokenTo r u := by
  obtain ⟨v, rfl⟩ := hu
  rintro w rfl hin
  exact h (v ++ w) (List.append_assoc v w r).symm (hin.trans (List.suffix_append v w).isInfix)

theorem tail {c : Char} (h : UnbrokenTo r (c :: s)) : UnbrokenTo r s :=
  h.of_suffix (List.suffix_cons c s)

theorem mono (h : UnbrokenTo r s) {u : List Char} (hu : r <:+ u) : UnbrokenTo u s := by
  obtain ⟨v, rfl⟩ := hu
  rintro w rfl hin
  exact h (w ++ v) (List.append_assoc w v r).symm (hin.trans (List.prefix_append w v).isInfix)

theorem ne_of_escape {c : Char} (h : UnbrokenTo r ('\\' :: c :: s)) (hr : r <:+ s) : c ≠ '\n' := by
  obtain ⟨v, rfl⟩ := hr
  rintro rfl
  exact h ('\\' :: '\n' :: v) rfl (List.prefix_append ['\\', '\n'] v).isInfix

end UnbrokenTo

namespace SameLines

variable {s t : List Char}

theorem head? (h : SameLines s t) (hs : s.head? ≠ some '\n') : t.head? = s.head? := by
  cases h with
  | nil => rfl
  | char hr hn h => rfl
  | feed h => exact absurd rfl hs
  | pair h => exact absurd rfl hs

theorem tail (h : SameLines s t) (hs : s.head? ≠ some '\n') : SameLines s.tail t.tail := by
  cases h with
  | nil => exact .nil
  | char hr hn h => exact h
  | feed h => exact absurd rfl hs
  | pair h => exact absurd rfl hs

theorem exists_cons {c : Char} (h : SameLines (c :: s) t) (hc : c ≠ '\n') :
    ∃ u : List Char, t = c :: u ∧ SameLines s u := by
  cases h with
  | char hr hn h => exact ⟨_, rfl, h⟩
  | feed h => exact absurd rfl hc
  | pair h => exact absurd rfl hc

theorem head?_of_break (h : SameLines s t) (hs : s.head? = some '\n') :
    t.head? = some '\n' ∨ t.head? = some '\r' := by
  cases h with
  | nil => cases hs
  | char hr hn h => exact absurd (Option.some.inj hs) hn
  | feed h => exact .inl rfl
  | pair h => exact .inr rfl

section Word

variable {w r : List Char} (hw : ∀ c ∈ w, c ≠ '\r' ∧ c ≠ '\n')

include hw

theorem exists_right (h : SameLines (w ++ r) t) : ∃ u : List Char, t = w ++ u ∧ SameLines r u := by
  induction w generalizing t with
  | nil => exact ⟨t, rfl, h⟩
  | cons c w ih =>
    obtain ⟨⟨hr, hn⟩, hw⟩ := List.forall_mem_cons.mp hw
    cases h with
    | char _ _ h =>
      obtain ⟨u, rfl, hu⟩ := ih hw h
      exact ⟨u, rfl, hu⟩
    | feed h => exact absurd rfl hn
    | pair h => exact absurd rfl hn

theorem exists_left (h : SameLines s (w ++ r)) : ∃ u : List Char, s = w ++ u ∧ SameLines u r := by
  induction w generalizing s with
  | nil => exact ⟨s, rfl, h⟩
  | cons c w ih =>
    obtain ⟨⟨hr, hn⟩, hw⟩ := List.forall_mem_cons.mp hw
    rw [List.cons_append] at h
    generalize hv : w ++ r = v at h
    cases h with
    | char _ _ h =>
      subst hv
      obtain ⟨u, rfl, hu⟩ := ih hw h
      exact ⟨u, rfl, hu⟩
    | feed h => exact absurd rfl hn
    | pair h => exact absurd rfl hr

end Word

end SameLines

/-! ### Literals -/

theorem ne_of_isQuote {mark c : Char} (hm : isQuote mark = true) (hc : isQuote c = false) : c ≠ mark := by
  rintro rfl
  rw [hm] at hc
  cases hc

theorem quoteRest_return {mark : Char} (hm : isQuote mark = true) (s : List Char) :
    quoteRest mark ('\r' :: s) = quoteRest mark s :=
  quoteRest_char (by decide) (ne_of_isQuote hm (by decide)) (fun h => absurd h (by decide)) s

theorem sameLines_quoteRest {mark : Char} (hm : isQuote mark = true) {s t : List Char}
    (h : SameLines s t) (hs : UnbrokenTo (quoteRest mark s) s) :
    SameLines (quoteRest mark s) (quoteRest mark t) := by
  have hfeed : '\n' ≠ mark := ne_of_isQuote hm (by decide)
  fun_induction quoteRest mark s generalizing t with
  | case1 =>
    cases h
    exact .nil
  | case2 c hc =>
    obtain rfl : c = '\\' := by simpa using hc
    cases h with
    | char hr hn h =>
      cases h
      exact .nil
  | case3 c hc d rest ih =>
    obtain rfl : c = '\\' := by simpa using hc
    have hd : d ≠ '\n' := hs.ne_of_escape (quoteRest_suffix mark rest)
    cases h with
    | char hr hn h =>
      cases h with
      | char _ _ h =>
        rw [quoteRest_escape]
        exact ih h hs.tail.tail
      | feed h => exact absurd rfl hd
      | pair h => exact absurd rfl hd
  | case4 c rest hb hc =>
    obtain rfl : c = mark := by simpa using hc
    cases h with
    | char hr hn h =>
      rw [quoteRest_mark (by simpa using hb)]
      exact h
    | feed h => exact absurd rfl hfeed
    | pair h => exact absurd rfl hfeed
  | case5 c rest hb hc hbreak =>
    -- a line break ends the quote
    obtain ⟨hn, hmark⟩ := Bool.and_eq_true_iff.mp hbreak
    obtain rfl : c = '\n' := by simpa using hn
    have hstop : ∀ u : List Char, quoteRest mark ('\n' :: u) = '\n' :: u := by
      intro u
      rw [quoteRest_cons, if_neg hb, if_neg hc, if_pos hbreak]
    cases h with
    | char hr hn h => exact absurd rfl hn
    | feed h =>
      rw [hstop]
      exact .feed h
    | pair h =>
      rw [quoteRest_return hm, hstop]
      exact .feed h
  | case6 c rest hb hc hbreak ih =>
    have hb' : c ≠ '\\' := by simpa using hb
    have hc' : c ≠ mark := by simpa using hc
    have hgo : ∀ u : List Char, quoteRest mark (c :: u) = quoteRest mark u := by
      intro u
      rw [quoteRest_cons, if_neg hb, if_neg hc, if_neg hbreak]
    cases h with
    | char hr hn h =>
      rw [hgo]
      exact ih h hs.tail
    | feed h =>
      rw [hgo]
      exact ih h hs.tail
    | pair h =>
      rw [quoteRest_return hm, hgo]
      exact ih h hs.tail

theorem sameLines_blockCommentRest {s t : List Char} (h : SameLines s t) :
    SameLines (blockCommentRest s) (blockCommentRest t) := by
  induction h with
  | nil => exact .nil
  | @char c s t hr hn h ih =>
    rw [blockCommentRest_cons, blockCommentRest_cons]
    by_cases hs : s.head? = some '\n'
    · -- a line break follows in both, so that the comment goes on
      have ht : t.head? ≠ some '/' := by
        rcases h.head?_of_break hs with ht | ht <;> simp [ht]
      rw [hs, if_neg (by simp), if_neg (by simp [ht])]
      exact ih
    · rw [h.head? hs]
      split
      · exact h.tail hs
      · exact ih
  | feed h ih =>
    rw [blockCommentRest_cons, blockCommentRest_cons, if_neg (by simp), if_neg (by simp)]
    exact ih
  | pair h ih =>
    rw [blockCommentRest_cons, if_neg (by simp), blockCommentRest_cons, if_neg (by simp),
      blockCommentRest_cons, if_neg (by simp)]
    exact ih

theorem sameLines_dropWhile {p : Char → Bool} (hp : p '\n' = false) {s t : List Char}
    (h : SameLines s t) : SameLines (s.dropWhile p) (t.dropWhile p) := by
  have hfeed : ¬p '\n' = true := by simp [hp]
  induction h with
  | nil => exact .nil
  | @char c s t hr hn h ih =>
    rw [List.dropWhile_cons, List.dropWhile_cons]
    split
    · exact ih
    · exact .char hr hn h
  | feed h ih =>
    rw [List.dropWhile_cons_of_neg hfeed, List.dropWhile_cons_of_neg hfeed]
    exact .feed h
  | pair h ih =>
    rw [List.dropWhile_cons_of_neg hfeed, List.dropWhile_cons]
    split
    · rw [List.dropWhile_cons_of_neg hfeed]
      exact .feed h
    · exact .pair h

/-- **A literal starts in both texts or in neither**, and ends at the same place. -/
theorem sameLines_literalRest? {c : Char} {s t : List Char} (h : SameLines s t)
    (hs : ∀ r : List Char, literalRest? (c :: s) = some r → UnbrokenTo r s) :
    (literalRest? (c :: s) = none ∧ literalRest? (c :: t) = none) ∨
      ∃ r u : List Char, literalRest? (c :: s) = some r ∧ literalRest? (c :: t) = some u ∧
        SameLines r u := by
  rw [literalRest?_cons] at hs
  rw [literalRest?_cons, literalRest?_cons]
  by_cases hq : isQuote c = true
  · rw [if_pos hq] at hs
    rw [if_pos hq, if_pos hq]
    exact .inr ⟨_, _, rfl, rfl, sameLines_quoteRest hq h (hs _ rfl)⟩
  rw [if_neg hq, if_neg hq]
  by_cases hbreak : s.head? = some '\n'
  · have ht : t.head? ≠ some '/' ∧ t.head? ≠ some '*' := by
      rcases h.head?_of_break hbreak with ht | ht <;> simp [ht]
    rw [hbreak, if_neg (by simp), if_neg (by simp), if_neg (by simp [ht.1]), if_neg (by simp [ht.2])]
    exact .inl ⟨rfl, rfl⟩
  · rw [h.head? hbreak]
    split
    · exact .inr ⟨_, _, rfl, rfl, sameLines_dropWhile (by decide) (h.tail hbreak)⟩
    · split
      · exact .inr ⟨_, _, rfl, rfl, sameLines_blockCommentRest (h.tail hbreak)⟩
      · exact .inl ⟨rfl, rfl⟩

theorem SameLines.literalRest?_eq_none {c : Char} {s t : List Char} (h : SameLines s t)
    (hlit : literalRest? (c :: s) = none) : literalRest? (c :: t) = none := by
  have hs : ∀ r : List Char, literalRest? (c :: s) = some r → UnbrokenTo r s := by
    rw [hlit]
    rintro r ⟨⟩
  rcases sameLines_literalRest? h hs with ⟨-, hnone⟩ | ⟨r, u, hr, -, -⟩
  · exact hnone
  · rw [hlit] at hr
    cases hr

/-! ### Statements -/

theorem ne_feed_of_isCloser {c : Char} (h : isCloser c = true) : c ≠ '\n' := by
  rintro rfl
  cases h

theorem statementRest_getD_suffix (kind : StatementKind) (stack : List Awaited) (s : List Char) :
    (statementRest kind stack s).toOption.getD [] <:+ s := by
  cases h : statementRest kind stack s with
  | error e => exact List.nil_suffix
  | ok r => exact statementRest_suffix h

/-- **A statement ends at the same place of both texts**, or fails in both. -/
theorem alike_statementRest (kind : StatementKind) {stack stack' : List Awaited} {s t : List Char}
    (h : SameLines s t) (hs : UnbrokenTo ((statementRest kind stack s).toOption.getD []) s)
    (hstack : stack.map Awaited.closer = stack'.map Awaited.closer) :
    Alike SameLines (statementRest kind stack s) (statementRest kind stack' t) := by
  fun_induction statementRest kind stack s generalizing stack' t with
  | case1 =>
    cases h
    obtain rfl : stack' = [] := by simpa using hstack
    rw [statementRest]
    exact .ok .nil
  | case2 top below =>
    cases h
    cases stack' with
    | nil => cases hstack
    | cons top' below' =>
      rw [statementRest]
      exact .error
  | case3 stack c rest after hlit _ ih =>
    have hc : c ≠ '\n' := by
      rintro rfl
      rw [literalRest?_eq_none (by decide) (by decide)] at hlit
      cases hlit
    obtain ⟨u, rfl, hu⟩ := h.exists_cons hc
    have hafter : UnbrokenTo after rest := hs.tail.mono (statementRest_getD_suffix _ _ _)
    rcases sameLines_literalRest? hu (by rw [hlit]; rintro _ ⟨⟩; exact hafter) with
      ⟨hnone, -⟩ | ⟨r, v, hr, hv, hsame⟩
    · rw [hlit] at hnone
      cases hnone
    · rw [hlit] at hr
      cases hr
      rw [statementRest_literal hv]
      exact ih hsame (hs.of_suffix (literalRest?_suffix hlit)) hstack
  | case4 stack c rest hlit closer hopen ih =>
    have hc : c ≠ '\n' := by
      rintro rfl
      cases hopen
    obtain ⟨u, rfl, hu⟩ := h.exists_cons hc
    rw [statementRest_open (hu.literalRest?_eq_none hlit) hopen]
    exact ih hu hs.tail (by rw [List.map_cons, List.map_cons, hstack])
  | case5 c rest hlit hopen hclose =>
    obtain ⟨u, rfl, hu⟩ := h.exists_cons (ne_feed_of_isCloser hclose)
    obtain rfl : stack' = [] := by simpa using hstack
    rw [statementRest_stray (hu.literalRest?_eq_none hlit) hopen hclose]
    exact .error
  | case6 c rest hlit hopen hclose top below hne =>
    obtain ⟨u, rfl, hu⟩ := h.exists_cons (ne_feed_of_isCloser hclose)
    cases stack' with
    | nil => cases hstack
    | cons top' below' =>
      obtain ⟨htop, -⟩ := List.cons.inj hstack
      rw [statementRest_close (hu.literalRest?_eq_none hlit) hopen hclose, ← htop, if_pos hne]
      exact .error
  | case7 c rest hlit hopen hclose top below hne ih =>
    obtain ⟨u, rfl, hu⟩ := h.exists_cons (ne_feed_of_isCloser hclose)
    cases stack' with
    | nil => cases hstack
    | cons top' below' =>
      obtain ⟨htop, hbelow⟩ := List.cons.inj hstack
      rw [statementRest_close (hu.literalRest?_eq_none hlit) hopen hclose, ← htop, if_neg hne]
      exact ih hu hs.tail hbelow
  | case8 stack c rest hlit hopen hclose hbreak =>
    obtain ⟨hn, hempty⟩ := Bool.and_eq_true_iff.mp hbreak
    obtain rfl : c = '\n' := by simpa using hn
    obtain rfl : stack = [] := by simpa using hempty
    obtain rfl : stack' = [] := by simpa using hstack
    cases h with
    | char hr hn h => exact absurd rfl hn
    | feed h =>
      rw [statementRest_feed]
      exact .ok (.feed h)
    | pair h =>
      rw [statementRest_return, statementRest_feed]
      exact .ok (.feed h)
  | case9 stack c rest hlit hopen hclose hbreak ih =>
    have hempty : stack.isEmpty = stack'.isEmpty := by
      have hmap := congrArg List.isEmpty hstack
      rwa [List.isEmpty_map, List.isEmpty_map] at hmap
    cases h with
    | char hr hn h =>
      rw [statementRest_plain (h.literalRest?_eq_none hlit) hopen (by simpa using hclose),
        if_neg (by simp [hn])]
      exact ih h hs.tail hstack
    | feed h =>
      rw [statementRest_feed, ← hempty, if_neg (by simpa using hbreak)]
      exact ih h hs.tail hstack
    | pair h =>
      rw [statementRest_return, statementRest_feed,
        ← hempty, if_neg (by simpa using hbreak)]
      exact ih h hs.tail hstack

/-! ### Runs of statements -/

theorem isKeywordEnd_eq {s t : List Char} (h : SameLines s t) : isKeywordEnd t = isKeywordEnd s := by
  cases h with
  | nil => rfl
  | char hr hn h => rfl
  | feed h => rfl
  | pair h => rfl

theorem keywordHere?_eq {s t : List Char} (h : SameLines s t) : keywordHere? t = keywordHere? s := by
  refine Option.ext fun kind => ?_
  rw [keywordHere?_eq_some_iff, keywordHere?_eq_some_iff]
  constructor
  · rintro ⟨rest, rfl, hend⟩
    obtain ⟨u, rfl, hu⟩ := h.exists_left (ne_break_of_mem_keyword kind)
    exact ⟨u, rfl, isKeywordEnd_eq hu ▸ hend⟩
  · rintro ⟨rest, rfl, hend⟩
    obtain ⟨u, rfl, hu⟩ := h.exists_right (ne_break_of_mem_keyword kind)
    exact ⟨u, rfl, (isKeywordEnd_eq hu).trans hend⟩

/-- **A statement starts in both texts or in neither.** -/
theorem sameLines_statementHere? {s t : List Char} (h : SameLines s t) :
    (statementHere? s = none ∧ statementHere? t = none) ∨
      ∃ (kind : StatementKind) (b b' : List Char), statementHere? s = some (kind, b) ∧
        statementHere? t = some (kind, b') ∧ SameLines b b' := by
  have hbody : SameLines (s.dropWhile Text.isIndent) (t.dropWhile Text.isIndent) :=
    sameLines_dropWhile (by decide) h
  rw [statementHere?, statementHere?, keywordHere?_eq hbody]
  cases keywordHere? (s.dropWhile Text.isIndent) with
  | none => exact .inl ⟨rfl, rfl⟩
  | some kind => exact .inr ⟨kind, _, _, rfl, rfl, hbody⟩

/-- No statement that starts on a line of the text has a backslash right before a line feed in it.  One
that does not end takes up the whole rest of the text. -/
def Unbroken (s : List Char) : Prop :=
  ∀ u ∈ lineRests s, ∀ (kind : StatementKind) (body : List Char), statementHere? u = some (kind, body) →
    UnbrokenTo ((statementRest kind [] body).toOption.getD []) body

theorem Unbroken.of_mem {s u : List Char} (h : Unbroken s) (hu : u ∈ lineRests s) : Unbroken u :=
  fun v hv => h v (lineRests_subset hu hv)

/-- It is enough that no backslash stands right before a line feed after the start of a statement. -/
theorem unbroken_of_rests {s : List Char}
    (h : ∀ u ∈ lineRests s, (statementHere? u).isSome = true → ¬['\\', '\n'] <:+: u) : Unbroken s := by
  intro u hu kind body hbody w hw hin
  have hbroken : ['\\', '\n'] <:+: body := hin.trans ⟨[], _, hw.symm⟩
  exact h u hu (by rw [hbody]; rfl) (hbroken.trans (suffix_of_statementHere? hbody).isInfix)

/-- Two runs with statements of the same kinds, after which the texts have the same lines. -/
structure SameRun (r r' : List Statement × List Char) : Prop where
  kinds : r.1.map Statement.kind = r'.1.map Statement.kind
  after : SameLines r.2 r'.2

/-- **A run of statements is the same in both texts**, or fails in both. -/
theorem alike_statementRun (total total' : Nat) {s t : List Char} (h : SameLines s t)
    (hs : Unbroken s) : Alike SameRun (statementRun total s) (statementRun total' t) := by
  induction hn : s.length using Nat.strong_induction_on generalizing s t with
  | _ n ih =>
    subst hn
    rcases sameLines_statementHere? h with ⟨hnone, hnone'⟩ | ⟨kind, b, b', hb, hb', hsame⟩
    · rw [statementRun_none hnone, statementRun_none hnone']
      exact .error
    rcases alike_statementRest kind hsame (hs s List.mem_cons_self kind b hb) rfl with
      ⟨r, r', hr, hr', hrr⟩ | ⟨e, e', he, he'⟩
    swap
    · rw [statementRun_error hb he, statementRun_error hb' he']
      exact .error
    rcases statementRest_eq_nil_or_cons hr with rfl | ⟨next, rfl⟩
    · cases hrr
      rw [statementRun_last hb hr (by simp), statementRun_last hb' hr' (by simp)]
      exact .ok ⟨rfl, .nil⟩
    -- both ends are line feeds
    obtain ⟨next', rfl, hnext⟩ : ∃ next', r' = '\n' :: next' ∧ SameLines next next' := by
      cases hrr with
      | char hr hn h => exact absurd rfl hn
      | feed h => exact ⟨_, rfl, h⟩
      | pair h =>
        rcases statementRest_eq_nil_or_cons hr' with hnil | ⟨u, hu⟩
        · cases hnil
        · exact absurd (List.cons.inj hu).1 (by decide)
    have hfeed : '\n' :: next <:+ s := (statementRest_suffix hr).trans (suffix_of_statementHere? hb)
    have hline : next ∈ lineRests s := List.mem_cons_of_mem s (mem_afterFeeds_iff.mpr hfeed)
    have hlt : next.length < s.length := hfeed.length_le
    rcases sameLines_statementHere? hnext with ⟨hnone, hnone'⟩ | ⟨kind', c, c', hc, hc', -⟩
    · rw [statementRun_last hb hr (by rintro _ _ ⟨⟩; exact hnone),
        statementRun_last hb' hr' (by rintro _ _ ⟨⟩; exact hnone')]
      exact .ok ⟨rfl, .feed hnext⟩
    · rw [statementRun_more hb hr (by rw [hc]; rfl), statementRun_more hb' hr' (by rw [hc']; rfl)]
      rcases ih next.length hlt hnext (hs.of_mem hline) rfl with ⟨q, q', hq, hq', hqq⟩ | ⟨e, e', he, he'⟩
      · rw [hq, hq']
        refine .ok ⟨?_, hqq.after⟩
        rw [List.map_cons, List.map_cons, hqq.kinds]
        rfl
      · rw [he, he']
        exact .error

/-! ### The line on which a run ends -/

/-- The text `r` ends the text `s`, and stands in it after a character that is no line feed. -/
def Follows (r s : List Char) : Prop :=
  ∃ (w : List Char) (c : Char), s = w ++ c :: r ∧ c ≠ '\n'

theorem Follows.of_suffix {r s t : List Char} (h : Follows r s) (hs : s <:+ t) : Follows r t := by
  obtain ⟨w, c, rfl, hc⟩ := h
  obtain ⟨v, rfl⟩ := hs
  exact ⟨v ++ w, c, (List.append_assoc v w (c :: r)).symm, hc⟩

theorem Follows.cons {r s : List Char} (h : Follows r s) (c : Char) : Follows r (c :: s) :=
  h.of_suffix (List.suffix_cons c s)

theorem follows_cons {c : Char} (hc : c ≠ '\n') (r : List Char) : Follows r (c :: r) :=
  ⟨[], c, rfl, hc⟩

section Before

variable {s r : List Char}

theorem follows_quoteRest {mark : Char} (hm : isQuote mark = true) (hs : UnbrokenTo ('\n' :: r) s)
    (h : quoteRest mark s = '\n' :: r) :
    (s = '\n' :: r ∧ mark ≠ '\x60') ∨ Follows ('\n' :: r) s := by
  have hfeed : mark ≠ '\n' := (ne_of_isQuote hm (by decide)).symm
  fun_induction quoteRest mark s with
  | case1 => cases h
  | case2 c hc => cases h
  | case3 c hc d rest ih =>
    obtain rfl : c = '\\' := by simpa using hc
    have hd : d ≠ '\n' := hs.ne_of_escape (h ▸ quoteRest_suffix mark rest)
    rcases ih hs.tail.tail h with ⟨rfl, -⟩ | hfollows
    · exact .inr ((follows_cons hd _).cons _)
    · exact .inr ((hfollows.cons d).cons _)
  | case4 c rest hb hc =>
    obtain rfl : c = mark := by simpa using hc
    subst h
    exact .inr (follows_cons hfeed _)
  | case5 c rest hb hc hbreak =>
    exact .inl ⟨h, by simpa using (Bool.and_eq_true_iff.mp hbreak).2⟩
  | case6 c rest hb hc hbreak ih =>
    rcases ih hs.tail h with ⟨rfl, hmark⟩ | hfollows
    · refine .inr (follows_cons ?_ _)
      rintro rfl
      exact hbreak (by simpa using hmark)
    · exact .inr (hfollows.cons c)

theorem follows_blockCommentRest (h : blockCommentRest s = '\n' :: r) : Follows ('\n' :: r) s := by
  fun_induction blockCommentRest s with
  | case1 => cases h
  | case2 c hc after =>
    subst h
    exact (follows_cons (by decide) _).cons c
  | case3 c rest hc hrest ih => exact (ih h).cons c
  | case4 c rest hc ih => exact (ih h).cons c

theorem follows_dropWhile (h : s.dropWhile (· != '\n') = '\n' :: r) :
    s = '\n' :: r ∨ Follows ('\n' :: r) s := by
  induction s with
  | nil => cases h
  | cons c s ih =>
    by_cases hc : c = '\n'
    · rw [List.dropWhile_cons_of_neg (by simp [hc])] at h
      exact .inl h
    · rw [List.dropWhile_cons_of_pos (by simp [hc])] at h
      rcases ih h with rfl | hfollows
      · exact .inr (follows_cons hc _)
      · exact .inr (hfollows.cons c)

theorem follows_literalRest? (hs : UnbrokenTo ('\n' :: r) s) (h : literalRest? s = some ('\n' :: r)) :
    Follows ('\n' :: r) s := by
  cases s with
  | nil => cases h
  | cons c s =>
    rw [literalRest?.eq_def] at h
    dsimp only at h
    split at h
    next hq =>
      have hc : c ≠ '\n' := (ne_of_isQuote hq (by decide)).symm
      rcases follows_quoteRest hq hs.tail (Option.some.inj h) with ⟨rfl, -⟩ | hfollows
      · exact follows_cons hc _
      · exact hfollows.cons c
    · split at h
      · split at h
        next after =>
          rcases follows_dropWhile (Option.some.inj h) with rfl | hfollows
          · exact (follows_cons (by decide) _).cons c
          · exact (hfollows.cons _).cons c
        next after => exact ((follows_blockCommentRest (Option.some.inj h)).cons _).cons c
        · cases h
      · cases h

/-- A line feed that ends a statement follows another character, or starts the text. -/
theorem follows_statementRest {kind : StatementKind} {stack : List Awaited}
    (hs : UnbrokenTo ('\n' :: r) s)
    (h : statementRest kind stack s = .ok ('\n' :: r)) :
    (s = '\n' :: r ∧ stack = []) ∨ Follows ('\n' :: r) s := by
  fun_induction statementRest kind stack s with
  | case1 => cases h
  | case2 => cases h
  | case3 stack c rest after hlit _ ih =>
    have hsuffix := literalRest?_suffix hlit
    rcases ih (hs.of_suffix hsuffix) h with ⟨rfl, -⟩ | hfollows
    · exact .inr (follows_literalRest? hs hlit)
    · exact .inr (hfollows.of_suffix hsuffix)
  | case4 stack c rest hlit closer hopen ih =>
    rcases ih hs.tail h with ⟨-, hnil⟩ | hfollows
    · cases hnil
    · exact .inr (hfollows.cons c)
  | case5 => cases h
  | case6 => cases h
  | case7 c rest hlit hopen hclose top below hne ih =>
    rcases ih hs.tail h with ⟨rfl, -⟩ | hfollows
    · exact .inr (follows_cons (ne_feed_of_isCloser hclose) _)
    · exact .inr (hfollows.cons c)
  | case8 stack c rest hlit hopen hclose hbreak =>
    exact .inl ⟨Except.ok.inj h, by simpa using (Bool.and_eq_true_iff.mp hbreak).2⟩
  | case9 stack c rest hlit hopen hclose hbreak ih =>
    rcases ih hs.tail h with ⟨rfl, rfl⟩ | hfollows
    · have hc : c ≠ '\n' := by
        rintro rfl
        exact hbreak rfl
      exact .inr (follows_cons hc _)
    · exact .inr (hfollows.cons c)

/-- **The line feed that ends a run follows another character.** -/
theorem follows_statementRun {total : Nat} {sts : List Statement} (hs : Unbroken s)
    (h : statementRun total s = .ok (sts, '\n' :: r)) : Follows ('\n' :: r) s := by
  induction hn : s.length using Nat.strong_induction_on generalizing s sts with
  | _ n ih =>
    subst hn
    obtain ⟨kind, body, rest, hhere, hrest, hcases⟩ := statementRun_cases h
    have hbody : body <:+ s := suffix_of_statementHere? hhere
    rcases hcases with ⟨-, rfl, -⟩ | ⟨c, next, more, rfl, hmore, -⟩
    · have hbroken := hs s List.mem_cons_self kind body hhere
      rw [hrest] at hbroken
      rcases follows_statementRest hbroken hrest with ⟨rfl, -⟩ | hfollows
      · -- a keyword is no line feed
        obtain ⟨-, -, -, hkey⟩ := exists_indent hhere
        exact absurd hkey (by simp [keywordHere?])
      · exact hfollows.of_suffix hbody
    · obtain rfl : c = '\n' := by
        rcases statementRest_eq_nil_or_cons hrest with hnil | ⟨u, hu⟩
        · cases hnil
        · exact (List.cons.inj hu).1
      have hfeed : '\n' :: next <:+ s := (statementRest_suffix hrest).trans hbody
      have hline : next ∈ lineRests s := List.mem_cons_of_mem s (mem_afterFeeds_iff.mpr hfeed)
      have hlt : next.length < s.length := hfeed.length_le
      exact (ih next.length hlt (hs.of_mem hline) hmore rfl).of_suffix (suffix_of_mem_lineRests hline)

end Before

end Mdx.Script
