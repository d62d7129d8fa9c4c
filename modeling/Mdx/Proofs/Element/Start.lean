import Mdx.Proofs.Element.Spelling
import Mdx.Proofs.Element.Unmatched

/-!
# Where markup starts, the lexer finds it

Whether markup starts at an angle bracket is told in two ways: by a pattern (`startsHere`), which looks at a
few characters and takes no colon in a name, and by the lexer, which reads the whole tag.  The pattern is the
stricter of the two.  Where it holds, the lexer has a tag or comment, or a fault of one, and never text
(`lexemeAfter_of_opens`).

`MarkupAt s k` says this of a whole text: its first tag or comment is at the offset `k`, or it has a fault
before any token.  It holds where the pattern does, after a text that has no bracket and no brace
(`markupAt_append`), and of every element that is cut out of running text (`markupAt_slice`).  A fragment that
is read from such a text has an element or a comment there (`MarkupAt.nodes`).
-/

namespace Mdx.Element

/-! ### The pattern -/

/-- What the pattern asks for after an opening angle bracket. -/
inductive Opens : List Char → Prop
  | comment {rest : List Char} : Opens ('!' :: '-' :: '-' :: rest)
  | closing {c : Char} {rest : List Char} (hc : isNameStart c = true ∨ c = '>') : Opens ('/' :: c :: rest)
  | fragment {rest : List Char} : Opens ('>' :: rest)
  | name {c : Char} {rest : List Char} (hc : isNameStart c = true)
      (hend : endsName (rest.dropWhile fun d => isNameRest d && d != ':') = true) : Opens (c :: rest)

theorem startRest?_name {c : Char} (hc : isNameStart c = true) (rest : List Char) :
    startRest? ('<' :: c :: rest) =
      if endsName (rest.dropWhile fun d => isNameRest d && d != ':') then
        some (rest.dropWhile fun d => isNameRest d && d != ':')
      else none := by
  have hother {d : Char} (hd : isNameStart d = false) : c ≠ d := by
    rintro rfl
    rw [hd] at hc
    cases hc
  unfold startRest?
  split
  next heq => exact absurd (List.cons.inj (List.cons.inj heq).2).1 (hother (by decide))
  next heq => exact absurd (List.cons.inj (List.cons.inj heq).2).1 (hother (by decide))
  next heq => exact absurd (List.cons.inj (List.cons.inj heq).2).1 (hother (by decide))
  next heq =>
    obtain ⟨rfl, rfl⟩ := List.cons.inj (List.cons.inj heq).2
    exact if_pos hc
  next hno => exact absurd rfl (hno _ _)

theorem startsHere_iff {w : List Char} : startsHere w = true ↔ ∃ rest, w = '<' :: rest ∧ Opens rest := by
  constructor
  · intro h
    unfold startsHere startRest? at h
    split at h
    next rest => exact ⟨_, rfl, .comment⟩
    next c rest =>
      split at h
      next hc => exact ⟨_, rfl, .closing (by simpa using hc)⟩
      next => cases h
    next rest => exact ⟨_, rfl, .fragment⟩
    next c rest _ _ _ =>
      split at h
      next hc =>
        dsimp only at h
        split at h
        next hend => exact ⟨_, rfl, .name hc hend⟩
        next => cases h
      next => cases h
    next => cases h
  · rintro ⟨rest, rfl, hopens⟩
    cases hopens with
    | comment => rfl
    | @closing c rest hc =>
      have hstart : (isNameStart c || c == '>') = true := by simpa using hc
      rw [startsHere, startRest?, if_pos hstart]
      rfl
    | fragment => rfl
    | @name c rest hc hend =>
      rw [startsHere, startRest?_name hc, if_pos hend]
      rfl

/-- **The lexer has a tag or comment, or a fault of one, where the pattern holds.** -/
theorem lexemeAfter_of_opens {rest : List Char} (h : Opens rest) : lexemeAfter rest ≠ .ok none := by
  intro hnone
  cases h with
  | comment =>
    rw [lexemeAfter_comment] at hnone
    split at hnone <;> cases hnone
  | @closing c rest hc =>
    rw [lexemeAfter_slash] at hnone
    rcases hc with hc | rfl
    · split at hnone
      next => cases hnone
      next =>
        rw [if_pos (by simpa using hc)] at hnone
        cases hnone
    · have hfragment : closingTag? ('>' :: rest) = some ("", rest) := rfl
      rw [hfragment] at hnone
      cases hnone
  | fragment =>
    rw [lexemeAfter_bracket] at hnone
    cases hnone
  | name hc =>
    rw [lexemeAfter_tag hc] at hnone
    split at hnone <;> cases hnone

/-! ### Line feeds -/

theorem endsName_dropWhile_feed (v u : List Char) :
    endsName ((v ++ '\n' :: u).dropWhile fun d => isNameRest d && d != ':') =
      endsName (v.dropWhile fun d => isNameRest d && d != ':') := by
  have hfeed : (isNameRest '\n' && '\n' != ':') = false := by decide
  rw [List.dropWhile_append]
  split
  next hall =>
    rw [List.isEmpty_iff.mp hall, List.dropWhile_cons_of_neg (by rw [hfeed]; decide)]
    rfl
  next hsome =>
    cases hrest : v.dropWhile fun d => isNameRest d && d != ':' with
    | nil => rw [hrest] at hsome; exact absurd rfl hsome
    | cons d rest => rfl

/-- **A line feed ends markup at its start just as the end of the text does.** -/
theorem opens_append_feed {v u : List Char} : Opens (v ++ '\n' :: u) ↔ Opens v := by
  constructor
  · intro h
    generalize hs : v ++ '\n' :: u = s at h
    cases h with
    | comment =>
      rcases v with _ | ⟨a, _ | ⟨b, _ | ⟨c, v⟩⟩⟩ <;> simp at hs
      obtain ⟨rfl, rfl, rfl, -⟩ := hs
      exact .comment
    | closing hc =>
      rcases v with _ | ⟨a, _ | ⟨b, v⟩⟩ <;> simp at hs
      · obtain ⟨-, rfl, -⟩ := hs
        exact absurd hc (by decide)
      · obtain ⟨rfl, rfl, -⟩ := hs
        exact .closing hc
    | fragment =>
      rcases v with _ | ⟨a, v⟩ <;> simp at hs
      obtain ⟨rfl, -⟩ := hs
      exact .fragment
    | name hc hend =>
      rcases v with _ | ⟨a, v⟩ <;> simp at hs
      · obtain ⟨rfl, -⟩ := hs
        exact absurd hc (by decide)
      · obtain ⟨rfl, rfl⟩ := hs
        exact .name hc ((endsName_dropWhile_feed v u).symm.trans hend)
  · intro h
    cases h with
    | comment => exact .comment
    | closing hc => exact .closing hc
    | fragment => exact .fragment
    | name hc hend => exact .name hc ((endsName_dropWhile_feed _ u).trans hend)

theorem startsHere_append {w u : List Char} (hu : ∀ c ∈ u.head?, c = '\n') :
    startsHere (w ++ u) = startsHere w := by
  cases u with
  | nil => rw [List.append_nil]
  | cons c u =>
    obtain rfl : c = '\n' := hu c rfl
    cases w with
    | nil => rfl
    | cons d w =>
      rw [Bool.eq_iff_iff, startsHere_iff, startsHere_iff]
      simp only [List.cons_append, List.cons.injEq]
      constructor
      · rintro ⟨_, ⟨rfl, rfl⟩, hopens⟩
        exact ⟨w, ⟨rfl, rfl⟩, opens_append_feed.mp hopens⟩
      · rintro ⟨_, ⟨rfl, rfl⟩, hopens⟩
        exact ⟨_, ⟨rfl, rfl⟩, opens_append_feed.mpr hopens⟩

theorem startsHere_dropEndWhile (w : List Char) :
    startsHere (Text.dropEndWhile (· == '\n') w) = startsHere w := by
  have hcut : Text.dropEndWhile (· == '\n') w ++ (w.reverse.takeWhile (· == '\n')).reverse = w := by
    rw [Text.dropEndWhile, ← List.reverse_append, List.takeWhile_append_dropWhile, List.reverse_reverse]
  have hfeeds : ∀ c ∈ (w.reverse.takeWhile (· == '\n')).reverse.head?, c = '\n' := by
    intro c hc
    have hmem := List.mem_reverse.mp (List.mem_of_mem_head? hc)
    simpa using List.mem_takeWhile_imp hmem
  rw [← startsHere_append hfeeds, hcut]

/-! ### The first token -/

/-- The first tag or comment of a text is at the offset `k`, or the text has a fault before any token. -/
inductive MarkupAt (s : List Char) (k : Nat) : Prop
  | token {t : Token} {ts : List Token} (htokens : (tokens s).1 = textToken 0 k ++ t :: ts)
      (hstart : t.start = k) (hkind : t.kind ≠ .text) : MarkupAt s k
  | fault (htokens : (tokens s).1 = []) (hfault : (tokens s).2.isSome = true) : MarkupAt s k

/-- **The lexer finds markup where the pattern holds**, after a text without brackets and braces. -/
theorem markupAt_append {pre w : List Char} (hangle : '<' ∉ pre) (hbrace : '\x7b' ∉ pre)
    (h : startsHere w = true) : MarkupAt (pre ++ w) pre.length := by
  obtain ⟨rest, rfl, hopens⟩ := startsHere_iff.mp h
  have htokens : tokens (pre ++ '<' :: rest) = tokensFrom (pre ++ '<' :: rest).length 0 ('<' :: rest) :=
    tokensFrom_append hangle hbrace _ _ _
  have hlength : (pre ++ '<' :: rest).length - (rest.length + 1) = pre.length := by
    rw [List.length_append, List.length_cons, Nat.add_sub_cancel]
  cases hlex : lexemeAfter rest with
  | error f =>
    rw [tokensFrom_fault hlex] at htokens
    exact .fault (congrArg Prod.fst htokens) (congrArg (·.2.isSome) htokens)
  | ok found =>
    cases found with
    | none => exact absurd hlex (lexemeAfter_of_opens hopens)
    | some l =>
      rw [tokensFrom_lexeme hlex, hlength] at htokens
      exact .token (congrArg Prod.fst htokens) rfl (kind_ne_text hlex)

/-- The search for an element goes on only from a tag or comment at the first character. -/
theorem first_of_scanFirst {ts : List Token} (h : scanFirst ts ≠ .absent) :
    ∃ (t : Token) (rest : List Token), ts = t :: rest ∧ t.start = 0 ∧ t.kind ≠ .text := by
  cases ts with
  | nil => exact absurd rfl h
  | cons t rest =>
    refine ⟨t, rest, rfl, ?_, ?_⟩
    · by_contra hstart
      exact h (if_pos (by simpa using hstart))
    · intro hkind
      apply h
      rw [scanFirst, hkind]
      split <;> rfl

theorem scanFirst_of_whole {w : List Char} (h : spanOf w = .whole) (hne : (tokens w).1 ≠ []) :
    scanFirst (tokens w).1 ≠ .absent := by
  intro habsent
  rw [spanOf] at h
  split at h
  next ts fault heq =>
    rw [heq] at habsent hne
    dsimp only at habsent hne
    rw [habsent] at h
    cases ts with
    | nil => exact hne rfl
    | cons t rest => cases fault <;> cases h

/-- **An element in running text starts with markup**, and so does what is taken for one because of a
fault. -/
theorem markupAt_slice {src : List Char} {pos limit e : Nat} (h : spanEnd? src pos limit = some e) :
    MarkupAt (slice src pos e) 0 := by
  cases hof : spanOf (slice src pos limit) with
  | upTo stop =>
    rw [spanEnd?_of_upTo hof] at h
    obtain rfl := Option.some.inj h
    have hscan := spanOf_eq_upTo_iff.mp hof
    obtain ⟨t, rest, hts, hstart, hkind⟩ := first_of_scanFirst (by rw [hscan]; simp)
    obtain ⟨b, hb, -, -⟩ := tokens_tiles (slice src pos limit)
    obtain ⟨us, vs, hsplit, hus, hpos, -⟩ := exists_construct_of_scanFirst hb hscan
    have hlength : ((slice src pos limit).take stop).length = stop := length_take_of_tiles hsplit hus
    have hcut : (slice src pos limit).take stop = slice src pos (pos + stop) := by
      rw [slice, List.take_take, List.length_take] at hlength
      rw [slice, slice, List.take_take, Nat.add_sub_cancel_left, Nat.min_eq_left (by omega)]
    have htokens : tokens (slice src pos (pos + stop)) = (us, none) := hcut ▸ tokens_take hsplit hus
    -- what is cut out has the first token of the text
    cases hus with
    | nil => exact absurd hpos (Nat.lt_irrefl 0)
    | cons hs hlt hrest =>
      obtain ⟨rfl, -⟩ := List.cons.inj (hts.symm.trans hsplit)
      exact .token (congrArg Prod.fst htokens) hstart hkind
  | whole =>
    rw [spanEnd?_of_whole hof] at h
    obtain rfl := Option.some.inj h
    by_cases hnil : (tokens (slice src pos limit)).1 = []
    · exact .fault hnil (Option.isSome_iff_ne_none.mpr (fault_of_spanOf_eq_whole hof))
    · obtain ⟨t, rest, hts, hstart, hkind⟩ := first_of_scanFirst (scanFirst_of_whole hof hnil)
      exact .token hts hstart hkind
  | absent =>
    rw [spanEnd?_of_absent hof] at h
    cases h

/-! ### The nodes -/

variable {src : List Char} {place : Placement}

/-- What a derivation stands for begins with an element, if the first token is neither text nor a
comment. -/
theorem Fragment.denote_cons {t : Token} {ts : List Token} (d : Fragment (t :: ts)) (hkind : t.kind ≠ .text) :
    t.kind = .comment ∨ ∃ (stop : Nat) (children rest : List Node),
      d.denote src place = elementNode src place t.start stop children :: rest := by
  cases d with
  | text ht _ => exact absurd ht hkind
  | comment ht _ => exact .inl ht
  | selfClosing _ rest => exact .inr ⟨t.stop, [], rest.denote src place, rfl⟩
  | @element _ last _ _ _ _ _ body rest =>
    exact .inr ⟨last.stop, body.denote src place, rest.denote src place, rfl⟩

theorem Fragment.denote_text {a b : Nat} {ts : List Token} (d : Fragment (textToken a b ++ ts)) :
    ∃ d' : Fragment ts,
      d.denote src place = (textToken a b).flatMap (textNodes src place) ++ d'.denote src place := by
  by_cases hab : a < b
  · have hone : textToken a b = [⟨.text, "", a, b⟩] := if_pos hab
    revert d
    rw [hone]
    intro d
    cases d with
    | text ht rest =>
      refine ⟨rest, ?_⟩
      rw [denote, List.flatMap_singleton, textNodes, Text.isBlankText]
      split <;> rfl
    | comment ht _ => cases ht
    | selfClosing ht _ => cases ht
    | element ht _ _ _ _ => cases ht
  · have hnone : textToken a b = [] := if_neg hab
    revert d
    rw [hnone]
    exact fun d => ⟨d, rfl⟩

/-- **What is read of a text is no text where its markup starts**: there is a comment or an element. -/
theorem MarkupAt.nodes {k : Nat} (h : MarkupAt src k) {ns : List Node}
    (hns : parseFragment src place = .ok ns) :
    (∃ t ∈ (tokens src).1, t.start = k ∧ t.kind = .comment) ∨
      ∃ (stop : Nat) (children rest : List Node),
        ns = (textToken 0 k).flatMap (textNodes src place) ++
          elementNode src place k stop children :: rest := by
  obtain ⟨hlex, d, rfl⟩ := parseFragment_eq_ok_iff.mp hns
  cases h with
  | fault _ hfault =>
    rw [hlex] at hfault
    cases hfault
  | @token t ts htokens hstart hkind =>
    obtain ⟨d', hd'⟩ : ∃ d' : Fragment (textToken 0 k ++ t :: ts), d'.denote src place = d.denote src place :=
      htokens ▸ ⟨d, rfl⟩
    obtain ⟨d'', hd''⟩ := @Fragment.denote_text src place _ _ _ d'
    rw [← hd', hd'', ← hstart]
    rcases @Fragment.denote_cons src place _ _ d'' hkind with hcomment | ⟨stop, children, rest, hfirst⟩
    · refine .inl ⟨t, ?_, rfl, hcomment⟩
      rw [htokens]
      exact List.mem_append_right _ List.mem_cons_self
    · exact .inr ⟨stop, children, rest, by rw [hfirst]⟩

end Mdx.Element
