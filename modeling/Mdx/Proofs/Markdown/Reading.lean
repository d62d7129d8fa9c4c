import Mdx.Markdown.Inline.Parser

/-!
# Steps of reading running text

Where the text before an offset is `x`, the piece that starts there is `y`, and the text after the piece is
`z`, one step of reading takes `y`: as it is, if it has no special characters (`readFrom_plain`), and as
raw markup, if it is a raw tag that starts neither a link nor an element (`readFrom_raw`).
-/

namespace Mdx.Markdown

variable {definitions : List Definition} {x y z : List Char}

namespace InlineText

theorem slice_append :
    slice ⟨(x ++ (y ++ z)).toArray, definitions⟩ x.length (x.length + y.length) = y := by
  simp [slice]

theorem slice_append_end :
    slice ⟨(x ++ y).toArray, definitions⟩ x.length (x ++ y).length = y := by
  simp [slice]

end InlineText

theorem runEnd_append {p : Char → Bool} {stop room : Nat} (hy : y.all p = true)
    (hz : z.head?.any p = false) (hstop : x.length + y.length ≤ stop) (hroom : y.length ≤ room) :
    runEnd (x ++ (y ++ z)).toArray p stop room x.length = x.length + y.length := by
  induction y generalizing x room with
  | nil =>
    cases room with
    | zero => rfl
    | succ room =>
      have hstays : ((x ++ ([] ++ z)).toArray[x.length]?).any p = false := by
        rw [List.nil_append, List.getElem?_toArray, List.getElem?_append_right (Nat.le_refl _),
          Nat.sub_self, ← List.head?_eq_getElem?]
        exact hz
      rw [runEnd, hstays, Bool.and_false]
      rfl
  | cons c y ih =>
    cases room with
    | zero => exact absurd hroom (Nat.not_succ_le_zero _)
    | succ room =>
      rw [List.all_cons, Bool.and_eq_true] at hy
      rw [List.length_cons] at hstop hroom
      have hc : ((x ++ (c :: y ++ z)).toArray[x.length]?).any p = true := by
        rw [List.getElem?_toArray, List.getElem?_append_right (Nat.le_refl _), Nat.sub_self]
        exact hy.1
      have hpos : decide (x.length < stop) = true := decide_eq_true (by omega)
      have hnext : runEnd (x ++ c :: (y ++ z)).toArray p stop room (x.length + 1) =
          x.length + 1 + y.length := by
        have hlen : (x ++ [c]).length = x.length + 1 := List.length_append
        have hnext := ih (x := x ++ [c]) hy.2 (by omega) (Nat.le_of_succ_le_succ hroom)
        rwa [hlen, List.append_assoc, List.singleton_append] at hnext
      rw [runEnd, hc, hpos, Bool.and_self, if_pos rfl, List.cons_append, hnext, List.length_cons]
      omega

theorem skipWhile_append {p : Char → Bool} (hy : y.all p = true) (hz : z.head?.any p = false) :
    skipWhile ⟨(x ++ (y ++ z)).toArray, definitions⟩ p x.length (x ++ (y ++ z)).length =
      x.length + y.length := by
  simp only [skipWhile, List.length_append]
  exact runEnd_append hy hz (by omega) (by omega)

variable {room level : Nat} {r : Reading}

namespace Reading

theorem flush_addChars {cs : List Char} (hpending : r.pending = []) (hne : cs ≠ []) :
    (r.addChars cs).flush =
      { r with tokens := r.tokens.push (.mk { kind := "text", content := String.ofList cs } .single []) } := by
  cases cs with
  | nil => exact absurd rfl hne
  | cons c cs => simp [addChars, flush, hpending]

theorem finish_of_no_marks (hmarks : r.marks = #[]) (hgroups : r.groups = []) :
    r.finish = r.tokens.toList := by
  have hpair : pairUp #[] = #[] := rfl
  rw [finish, hmarks, hgroups, List.map_singleton, hpair]
  rfl

end Reading

theorem readFrom_end (t : InlineText) (stop : Nat) : readFrom t room stop level stop r = r.flush := by
  cases room with
  | zero => rw [readFrom]
  | succ room => rw [readFrom, if_pos (Nat.le_refl stop)]

theorem readFrom_step {c : Char} (hlevel : level < inlineLevels) (hbracket : c ≠ '[') (hbang : c ≠ '!') :
    readFrom ⟨(x ++ c :: y).toArray, definitions⟩ (room + 1) (x ++ c :: y).length level x.length r =
      readFrom ⟨(x ++ c :: y).toArray, definitions⟩ room (x ++ c :: y).length level
        (readPlain ⟨(x ++ c :: y).toArray, definitions⟩ (x ++ c :: y).length x.length c r).1
        (readPlain ⟨(x ++ c :: y).toArray, definitions⟩ (x ++ c :: y).length x.length c r).2 := by
  have hpos : ¬(x ++ c :: y).length ≤ x.length := by
    rw [List.length_append, List.length_cons]
    omega
  have hchar : (x ++ c :: y).toArray.getD x.length ' ' = c := by simp
  rw [readFrom, if_neg hpos]
  simp only [hchar]
  rw [if_neg (Nat.not_le.mpr hlevel), if_neg (by simpa using hbracket), if_neg (by simpa using hbang)]

/-- **A run without special characters is text.** -/
theorem readFrom_plain {text : List Char} {pos : Nat} (htext : text = x ++ (y ++ z))
    (hpos : pos = x.length) (hlevel : level < inlineLevels) (hne : y ≠ [])
    (hy : y.all (!isSpecial ·) = true) (hz : z.head?.any (!isSpecial ·) = false) :
    readFrom ⟨text.toArray, definitions⟩ (room + 1) text.length level pos r =
      readFrom ⟨text.toArray, definitions⟩ room text.length level (pos + y.length) (r.addChars y) := by
  subst htext hpos
  have hskip : skipWhile ⟨(x ++ (y ++ z)).toArray, definitions⟩ (!isSpecial ·) x.length
      (x ++ (y ++ z)).length = x.length + y.length :=
    skipWhile_append hy hz
  cases y with
  | nil => exact absurd rfl hne
  | cons c y =>
    have hc : (!isSpecial c) = true := List.all_eq_true.mp hy c List.mem_cons_self
    have hne (d : Char) (hd : isSpecial d = true) : c ≠ d := by
      rintro rfl
      rw [hd] at hc
      cases hc
    have hread : readPlain ⟨(x ++ (c :: y ++ z)).toArray, definitions⟩ (x ++ (c :: y ++ z)).length x.length
        c r = (x.length + (c :: y).length, r.addChars (c :: y)) := by
      simp only [readPlain, if_pos hc, hskip, InlineText.slice_append]
    rw [List.cons_append] at hread ⊢
    rw [readFrom_step hlevel (hne '[' (by decide)) (hne '!' (by decide)), hread]

section Raw

variable {w : List Char}
  (hlink : ∀ url, angled? [] (w ++ z) = some url → autolinkAddress? url = none)
  (hspan : Element.spanOf ('<' :: (w ++ z)) = .absent)
  (hraw : rawInlineRest? ('<' :: (w ++ z)) = some z)

include hlink hspan hraw

theorem readAngle_raw (hw : 2 ≤ w.length) :
    readAngle ⟨(x ++ '<' :: (w ++ z)).toArray, definitions⟩ (x ++ '<' :: (w ++ z)).length x.length r =
      (x.length + ('<' :: w).length,
        r.push (.mk { kind := "html_inline", content := String.ofList ('<' :: w) } .single [])) := by
  let t : InlineText := ⟨(x ++ '<' :: (w ++ z)).toArray, definitions⟩
  have hlen : (x ++ '<' :: (w ++ z)).length = x.length + (w.length + z.length + 1) := by
    simp [Nat.add_assoc]
  have hnone : ((angled? [] (w ++ z)).bind fun url =>
      (autolinkAddress? url).map fun href => (url, href)) = none :=
    Option.bind_eq_none_iff.mpr fun url hurl => by rw [hlink url hurl]; rfl
  have helement : elementEnd? t (x ++ '<' :: (w ++ z)).length x.length = none := by
    have hwindow : ((x ++ '<' :: (w ++ z)).drop x.length).take
        ((x ++ '<' :: (w ++ z)).length - x.length) = '<' :: (w ++ z) := by
      rw [List.drop_left, List.length_append, Nat.add_sub_cancel_left, List.take_length]
    simp only [t, elementEnd?, Element.spanEnd?, hwindow, hspan, ite_self]
  have hraw' : rawEnd? t (x ++ '<' :: (w ++ z)).length x.length =
      some (x.length + ('<' :: w).length) := by
    have hsuffix : t.suffix x.length = '<' :: (w ++ z) := InlineText.slice_append_end
    have hpos : ¬(x ++ '<' :: (w ++ z)).length ≤ x.length + 2 := by omega
    simp only [t, rawEnd?, if_neg hpos, hsuffix, hraw, Option.map_some, List.size_toArray]
    rw [hlen, List.length_cons]
    congr 1
    omega
  have hcontent : t.slice x.length (x.length + ('<' :: w).length) = '<' :: w :=
    InlineText.slice_append (y := '<' :: w)
  simp only [readAngle, inlineElementRule, InlineText.slice_append_end, List.drop_one, List.tail_cons,
    hnone, helement, hraw', Reading.pushRaw, hcontent, t]

/-- **A raw tag that starts neither a link nor an element is raw markup.** -/
theorem readFrom_raw {text : List Char} {pos : Nat} (htext : text = x ++ '<' :: (w ++ z))
    (hpos : pos = x.length) (hlevel : level < inlineLevels) (hw : 2 ≤ w.length) :
    readFrom ⟨text.toArray, definitions⟩ (room + 1) text.length level pos r =
      readFrom ⟨text.toArray, definitions⟩ room text.length level (pos + ('<' :: w).length)
        (r.push (.mk { kind := "html_inline", content := String.ofList ('<' :: w) } .single [])) := by
  subst htext hpos
  rw [readFrom_step hlevel (by decide) (by decide), readPlain, if_neg (by decide)]
  simp only [readAngle_raw hlink hspan hraw hw]

end Raw

/-! ### Text with one raw tag in it -/

/-- A piece of running text that has no other pieces in it. -/
def leafPiece (kind : String) (text : List Char) : Syntax :=
  .node { kind := kind, content := String.ofList text } []

/-- **A raw tag between two plain texts is raw markup between them.** -/
theorem parseInline_raw {before w after : List Char} (hbefore : before ≠ [])
    (hplain : before.all (!isSpecial ·) = true) (hafter : after ≠ [])
    (hrest : after.all (!isSpecial ·) = true)
    (hlink : ∀ url, angled? [] (w ++ after) = some url → autolinkAddress? url = none)
    (hspan : Element.spanOf ('<' :: (w ++ after)) = .absent)
    (hraw : rawInlineRest? ('<' :: (w ++ after)) = some after) (hw : 2 ≤ w.length) :
    parseInline definitions (before ++ '<' :: (w ++ after)) =
      [leafPiece "text" before, leafPiece "html_inline" ('<' :: w), leafPiece "text" after] := by
  obtain ⟨text, htext⟩ : ∃ text, text = before ++ '<' :: (w ++ after) := ⟨_, rfl⟩
  have hlevel : 0 < inlineLevels := by decide
  have hlast : text = (before ++ '<' :: w) ++ (after ++ []) := by simp [htext]
  have hend : 0 + before.length + ('<' :: w).length + after.length = text.length := by
    rw [htext, List.length_append, List.length_cons, List.length_cons, List.length_append]
    omega
  have hread : readFrom ⟨text.toArray, definitions⟩ (2 * text.length + 3) text.length 0 0
      { memo := Memo.empty text.length } =
        { tokens :=
            #[.mk { kind := "text", content := String.ofList before } .single [],
              .mk { kind := "html_inline", content := String.ofList ('<' :: w) } .single [],
              .mk { kind := "text", content := String.ofList after } .single []]
          memo := Memo.empty text.length } := by
    rw [readFrom_plain htext (show 0 = ([] : List Char).length from rfl) hlevel hbefore hplain rfl,
      readFrom_raw hlink hspan hraw htext (Nat.zero_add _) hlevel hw,
      readFrom_plain hlast (by simp) hlevel hafter hrest rfl, hend, readFrom_end, Reading.push,
      Reading.flush_addChars rfl hbefore, Reading.flush_addChars rfl hafter]
    rfl
  rw [← htext, parseInline, readAll, hread, Reading.finish_of_no_marks rfl rfl]
  rfl

end Mdx.Markdown
