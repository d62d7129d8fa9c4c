import Mdx.Element.Span
import Mdx.Proofs.Element.Grammar
import Mdx.Proofs.Element.Tokens

/-!
# The span of an element is an element

In running text the end of an element is found by a search that keeps the names of the open tags
only.  The element is cut out of the text at that end, and parsed there without what follows it.
The two agree.

* The search passes over every fragment (`Fragment.scanTags_append`), so an opening tag that starts
  an element has an end.
* Where the search ends, the tokens up to there close the open tags (`closes_of_scanTags`), so they
  are one element.
* The text up to the end of a token has the tokens up to there (`tokens_take`), so they are the tokens
  of what is cut out.
-/

namespace Mdx.Element

/-! ### The search and the grammar -/

theorem scanTags_skip {t : Token} (ho : t.kind ≠ .openTag) (hc : t.kind ≠ .closeTag) (name : String)
    (names : List String) (ts : List Token) :
    scanTags (name :: names) (t :: ts) = scanTags (name :: names) ts := by
  rw [scanTags.eq_def]
  cases ht : t.kind <;> simp_all

theorem scanTags_openTag {t : Token} (ht : t.kind = .openTag) (name : String) (names : List String)
    (ts : List Token) :
    scanTags (name :: names) (t :: ts) = scanTags (t.name :: name :: names) ts := by
  rw [scanTags.eq_def]
  simp only [ht]

theorem scanTags_closeTag {t : Token} (ht : t.kind = .closeTag) (name : String)
    (names : List String) (ts : List Token) :
    scanTags (name :: names) (t :: ts) =
      if name = t.name then if names = [] then .closed t.stop else scanTags names ts
      else .absent := by
  rw [scanTags.eq_def]
  by_cases hn : name = t.name <;> simp [ht, hn]

/-- **The search passes over a fragment.** -/
theorem Fragment.scanTags_append {us : List Token} (d : Fragment us) :
    ∀ (name : String) (names : List String) (ts : List Token),
      scanTags (name :: names) (us ++ ts) = scanTags (name :: names) ts := by
  induction d with
  | nil => intro name names ts; rfl
  | text ht rest ih =>
    intro name names ts
    rw [List.cons_append, scanTags_skip (by simp [ht]) (by simp [ht]), ih]
  | comment ht rest ih =>
    intro name names ts
    rw [List.cons_append, scanTags_skip (by simp [ht]) (by simp [ht]), ih]
  | selfClosing ht rest ih =>
    intro name names ts
    rw [List.cons_append, scanTags_skip (by simp [ht]) (by simp [ht]), ih]
  | element hf hl hn body rest ihb ihr =>
    intro name names ts
    rw [List.cons_append, List.append_assoc, List.cons_append, scanTags_openTag hf, ihb,
      scanTags_closeTag hl, if_pos hn, if_neg (List.cons_ne_nil _ _), ihr]

/-- **Where the search ends, the open tags are closed.** -/
theorem closes_of_scanTags {stop : Nat} : ∀ (ts : List Token) (names : List String),
    scanTags names ts = .closed stop →
      ∃ (us : List Token) (c : Token) (vs : List Token), ts = us ++ c :: vs ∧ c.stop = stop ∧
        Closes names (us ++ [c]) := by
  intro ts
  induction ts with
  | nil => intro names h; cases names <;> cases h
  | cons t ts ih =>
    intro names h
    cases names with
    | nil => cases h
    | cons name names =>
      by_cases ho : t.kind = .openTag
      · rw [scanTags_openTag ho] at h
        obtain ⟨us, c, vs, rfl, hstop, hcl⟩ := ih _ h
        obtain ⟨pre, us', heq, hus', ⟨f⟩⟩ := hcl.exists_element ho
        refine ⟨t :: us, c, vs, rfl, hstop, ?_⟩
        rw [List.cons_append, heq]
        exact hus'.extend pre f
      by_cases hc : t.kind = .closeTag
      · rw [scanTags_closeTag hc] at h
        by_cases hn : name = t.name
        · subst hn
          rw [if_pos rfl] at h
          by_cases hnil : names = []
          · subst hnil
            rw [if_pos rfl, SpanScan.closed.injEq] at h
            exact ⟨[], t, ts, rfl, h, .cons .nil hc .nil⟩
          · rw [if_neg hnil] at h
            obtain ⟨us, c, vs, rfl, hstop, hcl⟩ := ih _ h
            exact ⟨t :: us, c, vs, rfl, hstop, .cons Fragment.nil hc hcl⟩
        · rw [if_neg hn] at h
          cases h
      · rw [scanTags_skip ho hc] at h
        obtain ⟨us, c, vs, rfl, hstop, hcl⟩ := ih _ h
        refine ⟨t :: us, c, vs, rfl, hstop, hcl.extend [t] fun d => ?_⟩
        cases ht : t.kind with
        | text => exact .text ht d
        | comment => exact .comment ht d
        | selfClosing => exact .selfClosing ht d
        | openTag => exact absurd ht ho
        | closeTag => exact absurd ht hc

/-! ### The first token -/

/-- **What the search finds is one comment or one element**, from the first character on. -/
theorem exists_construct_of_scanFirst {ts : List Token} {b stop : Nat} (hts : Tiles 0 ts b)
    (h : scanFirst ts = .closed stop) :
    ∃ us vs : List Token, ts = us ++ vs ∧ Tiles 0 us stop ∧ 0 < stop ∧
      ((∃ t : Token, us = [t] ∧ t.kind = .comment) ∨
        ∃ d : Fragment us, ∀ (src : List Char) (place : Placement),
          ∃ children : List Node, d.denote src place = [elementNode src place 0 stop children]) := by
  cases hts with
  | nil => cases h
  | @cons t ts _ _ hs hlt hts =>
    have hone : t.stop = stop → Tiles 0 [t] stop := by
      rintro rfl
      exact .cons hs hlt (.nil _)
    rw [scanFirst.eq_def] at h
    simp only [hs, bne_self_eq_false, Bool.false_eq_true, if_false] at h
    cases ht : t.kind with
    | text => simp [ht] at h
    | closeTag => simp [ht] at h
    | comment =>
      simp only [ht, SpanScan.closed.injEq] at h
      exact ⟨[t], ts, rfl, hone h, h ▸ hlt, .inl ⟨t, rfl, ht⟩⟩
    | selfClosing =>
      simp only [ht, SpanScan.closed.injEq] at h
      refine ⟨[t], ts, rfl, hone h, h ▸ hlt, .inr ⟨.selfClosing ht .nil, fun src place => ⟨[], ?_⟩⟩⟩
      rw [Fragment.denote, Fragment.denote, hs, h]
      rfl
    | openTag =>
      simp only [ht] at h
      obtain ⟨us, c, vs, rfl, hstop, hcl⟩ := closes_of_scanTags ts _ h
      have htile : Tiles 0 (t :: (us ++ [c])) stop := by
        rw [← List.singleton_append, ← List.append_assoc] at hts
        obtain ⟨m, hm, -⟩ := hts.of_append
        obtain ⟨k, hk, hend⟩ := hm.of_append
        cases hend with
        | cons hs' hlt' hnil =>
          cases hnil
          exact hstop ▸ .cons hs hlt (hk.append (.cons hs' hlt' (.nil _)))
      generalize hname : t.name = name at hcl
      generalize hlast : us ++ [c] = us' at hcl
      cases hcl with
      | @cons _ inner rest c' d hc' hrest =>
        cases hrest
        obtain ⟨rfl, hcc⟩ := List.append_inj' hlast rfl
        obtain rfl : c = c' := List.head_eq_of_cons_eq hcc
        refine ⟨t :: (us ++ [c]), vs, by simp, htile, ?_, .inr
          ⟨.element ht hc' hname d .nil, fun src place => ⟨d.denote src place, ?_⟩⟩⟩
        · have := (htile.bounds (List.mem_cons_self)).2
          omega
        · rw [Fragment.denote, Fragment.denote, hs, hstop]
          rfl

theorem Fragment.scanFirst_closed {t : Token} {ts : List Token} (d : Fragment (t :: ts))
    (hs : t.start = 0) (ht : t.kind = .openTag) : ∃ stop : Nat, scanFirst (t :: ts) = .closed stop := by
  have hfirst : scanFirst (t :: ts) = scanTags [t.name] ts := by
    rw [scanFirst.eq_def]
    simp [hs, ht]
  cases d with
  | text ht' _ => simp [ht] at ht'
  | comment ht' _ => simp [ht] at ht'
  | selfClosing ht' _ => simp [ht] at ht'
  | @element _ last inner ts hf hl hn body rest =>
    refine ⟨last.stop, ?_⟩
    rw [hfirst, body.scanTags_append, scanTags_closeTag hl, if_pos hn, if_pos rfl]

/-! ### The piece of text -/

theorem spanOf_eq_upTo_iff {w : List Char} {stop : Nat} :
    spanOf w = .upTo stop ↔ scanFirst (tokens w).1 = .closed stop := by
  rw [spanOf]
  split
  next ts fault heq =>
    rw [heq]
    split
    next hscan => simp [hscan]
    next hscan => simp [hscan]
    next hscan => split <;> simp [hscan]
    next hclosed _ _ =>
      constructor
      · intro h
        cases h
      · intro h
        exact (hclosed stop h).elim

/-- Only a fault takes all of the text. -/
theorem fault_of_spanOf_eq_whole {w : List Char} (h : spanOf w = .whole) : (tokens w).2 ≠ none := by
  rw [spanOf] at h
  split at h
  next ts fault heq =>
    rw [heq]
    split at h <;> simp_all

section SpanEnd

variable {src : List Char} {pos limit : Nat}

theorem spanEnd?_of_upTo {stop : Nat} (h : spanOf (slice src pos limit) = .upTo stop) :
    spanEnd? src pos limit = some (pos + stop) := by
  rw [slice] at h
  rw [spanEnd?, h]

theorem spanEnd?_of_whole (h : spanOf (slice src pos limit) = .whole) :
    spanEnd? src pos limit = some limit := by
  rw [slice] at h
  rw [spanEnd?, h]

theorem spanEnd?_of_absent (h : spanOf (slice src pos limit) = .absent) :
    spanEnd? src pos limit = none := by
  rw [slice] at h
  rw [spanEnd?, h]

end SpanEnd

/-- The text up to the end of its first element or comment parses to that. -/
theorem parseFragment_take_of_scanFirst {w : List Char} {stop : Nat} (place : Placement)
    (h : scanFirst (tokens w).1 = .closed stop) :
    0 < stop ∧ stop ≤ w.length ∧
      ((∃ t : Token, tokens (w.take stop) = ([t], none) ∧ t.kind = .comment ∧
          parseFragment (w.take stop) place = .ok []) ∨
        ∃ n : Node, parseFragment (w.take stop) place = .ok [n] ∧ n.kind = "jsx" ∧
          n.value = some (String.ofList (w.take stop))) := by
  obtain ⟨b, hb, -, -⟩ := tokens_tiles w
  obtain ⟨us, vs, hts, hus, hpos, hwhat⟩ := exists_construct_of_scanFirst hb h
  have htok : tokens (w.take stop) = (us, none) := tokens_take hts hus
  have hlen : (w.take stop).length = stop := length_take_of_tiles hts hus
  have hle : stop ≤ w.length := by
    rw [List.length_take] at hlen
    omega
  refine ⟨hpos, hle, ?_⟩
  rcases hwhat with ⟨t, rfl, ht⟩ | ⟨d, hd⟩
  · refine .inl ⟨t, htok, ht, parseFragment_eq_ok_iff.mpr ?_⟩
    rw [htok]
    exact ⟨rfl, .comment ht .nil, rfl⟩
  · obtain ⟨children, hd⟩ := hd (w.take stop) place
    have hparse : parseFragment (w.take stop) place =
        .ok [elementNode (w.take stop) place 0 stop children] := by
      rw [parseFragment_eq_ok_iff, htok]
      exact ⟨rfl, d, hd⟩
    have hall : slice (w.take stop) 0 stop = w.take stop := by
      rw [slice, List.drop_zero, Nat.sub_zero, List.take_take, Nat.min_self]
    refine .inr ⟨_, hparse, rfl, ?_⟩
    show some (String.ofList (slice (w.take stop) 0 stop)) = _
    rw [hall]

/-- **The end of an element in running text and the parse of the element agree.**

* Where an element or a comment closes before any fault, the piece up to there parses, on its own,
  to one element, whose value is the whole piece, or to nothing if it is one comment.
* An end that is there for a fault is the end of the text, and the text has a parse error.
* Where an opening tag has no end, the text has a parse error too. -/
theorem span_agrees_with_parse (src : List Char) (pos limit : Nat) (place : Placement)
    (hpos : pos ≤ limit) (hlimit : limit ≤ src.length) :
    (∀ stop : Nat, scanFirst (tokens (slice src pos limit)).1 = .closed stop →
        ∃ e : Nat, spanEnd? src pos limit = some e ∧ pos < e ∧ e ≤ limit ∧
          ((∃ t : Token, tokens (slice src pos e) = ([t], none) ∧ t.kind = .comment ∧
              parseFragment (slice src pos e) place = .ok []) ∨
            ∃ n : Node, parseFragment (slice src pos e) place = .ok [n] ∧ n.kind = "jsx" ∧
              n.value = some (String.ofList (slice src pos e)))) ∧
      (∀ e : Nat, spanEnd? src pos limit = some e →
        (∀ stop : Nat, scanFirst (tokens (slice src pos limit)).1 ≠ .closed stop) →
          (tokens (slice src pos limit)).2 ≠ none ∧ e = limit ∧ pos < limit ∧
            ∃ err : StructureError, parseFragment (slice src pos e) place = .error err) ∧
      (∀ t : Token, (tokens (slice src pos limit)).1.head? = some t → t.kind = .openTag →
        t.start = 0 → spanEnd? src pos limit = none →
          ∃ err : StructureError, parseFragment (slice src pos limit) place = .error err) := by
  have hlen : (slice src pos limit).length = limit - pos := by
    rw [slice, List.length_take, List.length_drop]
    omega
  refine ⟨fun stop hscan => ?_, fun e he hscan => ?_, fun t hhead ht hs hnone => ?_⟩
  · obtain ⟨hstop, hle, hparse⟩ := parseFragment_take_of_scanFirst place hscan
    have hcut : (slice src pos limit).take stop = slice src pos (pos + stop) := by
      rw [slice, slice, List.take_take, Nat.add_sub_cancel_left, Nat.min_eq_left (hlen ▸ hle)]
    refine ⟨pos + stop, ?_, by omega, by omega, hcut ▸ hparse⟩
    exact spanEnd?_of_upTo (spanOf_eq_upTo_iff.mpr hscan)
  · cases hof : spanOf (slice src pos limit) with
    | upTo stop => exact absurd (spanOf_eq_upTo_iff.mp hof) (hscan stop)
    | absent =>
      rw [spanEnd?_of_absent hof] at he
      cases he
    | whole =>
      rw [spanEnd?_of_whole hof] at he
      obtain rfl : limit = e := Option.some.inj he
      have hfault := fault_of_spanOf_eq_whole hof
      have hne : slice src pos limit ≠ [] := by
        intro hnil
        rw [hnil, tokens, tokensFrom_nil] at hfault
        exact hfault rfl
      have hlt : 0 < (slice src pos limit).length := List.length_pos_iff.mpr hne
      exact ⟨hfault, rfl, by omega, parseFragment_eq_error_iff.mpr fun h => hfault h.1⟩
  · refine parseFragment_eq_error_iff.mpr ?_
    rintro ⟨-, ⟨d⟩⟩
    obtain ⟨ts, hts⟩ : ∃ ts, (tokens (slice src pos limit)).1 = t :: ts :=
      List.head?_eq_some_iff.mp hhead
    obtain ⟨stop, hscan⟩ := (hts ▸ d).scanFirst_closed hs ht
    rw [spanEnd?_of_upTo (spanOf_eq_upTo_iff.mpr (hts ▸ hscan))] at hnone
    cases hnone

/-- A closing tag in a brace group does not end the element, a quote that is never closed takes the
rest, and a wrong closing tag leaves no element. -/
theorem span_agrees_with_parse_group_quote_stray :
    (∃ e : Nat, spanEnd? "x <a b='>'>\x7b'</a>'\x7d</a> c".toList 2 25 = some e ∧ 2 < e ∧ e ≤ 25 ∧
        ((∃ t : Token, tokens (slice "x <a b='>'>\x7b'</a>'\x7d</a> c".toList 2 e) = ([t], none) ∧
            t.kind = .comment ∧
            parseFragment (slice "x <a b='>'>\x7b'</a>'\x7d</a> c".toList 2 e) {} = .ok []) ∨
          ∃ n : Node, parseFragment (slice "x <a b='>'>\x7b'</a>'\x7d</a> c".toList 2 e) {} = .ok [n] ∧
            n.kind = "jsx" ∧
            n.value = some (String.ofList (slice "x <a b='>'>\x7b'</a>'\x7d</a> c".toList 2 e)))) ∧
      ((tokens (slice "<a><b c='".toList 0 9)).2 ≠ none ∧ 9 = 9 ∧ 0 < 9 ∧
        ∃ err : StructureError, parseFragment (slice "<a><b c='".toList 0 9) {} = .error err) ∧
      ∃ err : StructureError, parseFragment (slice "<a></b>".toList 0 7) {} = .error err := by
  refine ⟨?_, ?_, ?_⟩
  · exact (span_agrees_with_parse "x <a b='>'>\x7b'</a>'\x7d</a> c".toList 2 25 {} (by decide)
      (by decide)).1 21 (by decide +kernel)
  · have hnot : scanFirst (tokens (slice "<a><b c='".toList 0 9)).1 = .unclosed := by
      decide +kernel
    refine (span_agrees_with_parse "<a><b c='".toList 0 9 {} (by decide) (by decide)).2.1 9
      (by decide +kernel) ?_
    intro stop
    rw [hnot]
    simp
  · exact (span_agrees_with_parse "<a></b>".toList 0 7 {} (by decide) (by decide)).2.2
      ⟨.openTag, "a", 0, 3⟩ (by decide +kernel) rfl rfl (by decide +kernel)

end Mdx.Element
