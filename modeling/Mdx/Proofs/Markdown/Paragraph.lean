import Mdx.Markdown.Document

/-!
# Documents of a single line

A document of one line that starts with a letter is a paragraph: no other block starts with a letter, and
a heading that is underlined, or a table, would need a second line (`parseBlocks_line`).  If the line does
not end with a blank either, all of it is the paragraph's running text (`parseSyntax_line`).
-/

namespace Mdx.Markdown

/-! ### Lines -/

theorem splitLines_of_not_mem {s : List Char} (h : '\n' ∉ s) (before : List Char) :
    splitLines before s =
      if (s.reverse ++ before).all Text.isIndent then [] else [Line.ofChars (before.reverse ++ s) false] := by
  induction s generalizing before with
  | nil => rw [splitLines, List.reverse_nil, List.nil_append, List.append_nil]
  | cons c rest ih =>
    have hc : c ≠ '\n' := fun hc => h (hc ▸ List.mem_cons_self)
    have hrest : '\n' ∉ rest := fun hr => h (List.mem_cons_of_mem c hr)
    rw [splitLines, if_neg hc, ih hrest, List.reverse_cons, List.reverse_cons, List.append_assoc,
      List.append_assoc, List.singleton_append, List.singleton_append]

/-- A line without an indent, which ends the document. -/
def soleLine (text : List Char) : Line where
  text := text
  ended := false
  shift := 0
  indent := 0
  base := 0

theorem toNat_of_isAlpha {c : Char} (h : c.isAlpha = true) :
    (65 ≤ c.toNat ∧ c.toNat ≤ 90) ∨ (97 ≤ c.toNat ∧ c.toNat ≤ 122) := by
  rcases Bool.or_eq_true_iff.mp h with hupper | hlower
  · exact Or.inl (of_decide_eq_true hupper)
  · obtain ⟨hlow, hhigh⟩ := Bool.and_eq_true_iff.mp hlower
    exact Or.inr ⟨of_decide_eq_true hlow, of_decide_eq_true hhigh⟩

theorem toNat_of_isDigit {c : Char} (h : c.isDigit = true) : 48 ≤ c.toNat ∧ c.toNat ≤ 57 := by
  obtain ⟨hlow, hhigh⟩ := Bool.and_eq_true_iff.mp h
  exact ⟨of_decide_eq_true hlow, of_decide_eq_true hhigh⟩

theorem ne_of_isAlpha {c d : Char} (hc : c.isAlpha = true) (hd : d.isAlpha = false) : c ≠ d := by
  rintro rfl
  rw [hc] at hd
  cases hd

variable {c : Char} {rest : List Char}

theorem linesOf_line (hc : c.isAlpha = true) (h : '\n' ∉ c :: rest) :
    linesOf (c :: rest) = #[soleLine (c :: rest)] := by
  have hspace : (c == ' ') = false := beq_eq_false_iff_ne.mpr (ne_of_isAlpha hc (by decide))
  have htab : (c == '\t') = false := beq_eq_false_iff_ne.mpr (ne_of_isAlpha hc (by decide))
  have hindent : ((c :: rest).reverse ++ []).all Text.isIndent = false := by
    simp [Text.isIndent, hspace, htab]
  rw [linesOf, splitLines_of_not_mem h, hindent]
  simp [Line.ofChars, Line.measure, hspace, htab, soleLine]

/-! ### No mark of a block is a letter -/

section Marks

variable (hc : c.isAlpha = true)

include hc

theorem beq_sign_eq_false {d : Char} (hd : d.isAlpha = false) : (c == d) = false :=
  beq_eq_false_iff_ne.mpr (ne_of_isAlpha hc hd)

theorem fenceOpening?_letter : fenceOpening? (c :: rest) = none := by
  have htilde : (c == '~') = false := beq_sign_eq_false hc (by decide)
  have htick : (c == '\x60') = false := beq_sign_eq_false hc (by decide)
  rw [fenceOpening?, htilde, htick]
  rfl

theorem isThematicBreak_letter : isThematicBreak (c :: rest) = false := by
  have hstar : (c == '*') = false := beq_sign_eq_false hc (by decide)
  have hdash : (c == '-') = false := beq_sign_eq_false hc (by decide)
  have hlow : (c == '_') = false := beq_sign_eq_false hc (by decide)
  rw [isThematicBreak, hstar, hdash, hlow]
  rfl

theorem itemMark?_letter : itemMark? (c :: rest) = none := by
  have hdigit : ¬c.isDigit = true := by
    intro hdigit
    have := toNat_of_isAlpha hc
    have := toNat_of_isDigit hdigit
    omega
  have hstar : (c == '*') = false := beq_sign_eq_false hc (by decide)
  have hdash : (c == '-') = false := beq_sign_eq_false hc (by decide)
  have hplus : (c == '+') = false := beq_sign_eq_false hc (by decide)
  rw [itemMark?, orderedMark?, List.takeWhile_cons_of_neg hdigit, bulletMark?, hstar, hdash, hplus]
  rfl

theorem rawTextEnd?_letter : rawTextEnd? (c :: rest) = none := by
  have hangle : c ≠ '<' := ne_of_isAlpha hc (by decide)
  rw [rawTextEnd?.eq_def]
  split
  next heq => exact absurd (List.cons.inj heq).1 hangle
  next heq => exact absurd (List.cons.inj heq).1 hangle
  · rfl

theorem startsHere_letter : Element.startsHere (c :: rest) = false := by
  have hangle : c ≠ '<' := ne_of_isAlpha hc (by decide)
  rw [Element.startsHere, Element.startRest?.eq_def]
  split
  next heq => exact absurd (List.cons.inj heq).1 hangle
  next heq => exact absurd (List.cons.inj heq).1 hangle
  next heq => exact absurd (List.cons.inj heq).1 hangle
  next heq => exact absurd (List.cons.inj heq).1 hangle
  · rfl

theorem heading?_letter : heading? (c :: rest) = none := by
  have hsign : (c == '#') = false := beq_sign_eq_false hc (by decide)
  have htake : (c :: rest).takeWhile (· == '#') = [] := by
    rw [List.takeWhile_cons, hsign]
    rfl
  rw [heading?, htake]
  rfl

end Marks

/-! ### Blocks -/

/-- **A line that starts with a letter starts a paragraph**, if it is the only one. -/
theorem blockAt_line (hc : c.isAlpha = true) (quoted item : BlockParser) :
    blockAt quoted item #[soleLine (c :: rest)] { last := 1 } 0 1 =
      ofFound (paragraph #[soleLine (c :: rest)] { last := 1 } 0) := by
  have htable : table? #[soleLine (c :: rest)] { last := 1 } 0 1 = none := rfl
  have hcode : codeBlock? #[soleLine (c :: rest)] { last := 1 } 0 1 = none := rfl
  have htext : startText? { last := 1 } (lineAt #[soleLine (c :: rest)] 0) = some (c :: rest) := rfl
  have hfence : fence? #[soleLine (c :: rest)] { last := 1 } 0 1 = none := by
    rw [fence?, htext, Option.bind_some, fenceOpening?_letter hc]
  have hquote : quote? quoted #[soleLine (c :: rest)] { last := 1 } 0 1 = none := by
    have hangle : ¬startsQuote (c :: rest) = true := by
      have hne : c ≠ '>' := ne_of_isAlpha hc (by decide)
      simp [startsQuote, hne]
    simp only [quote?, htext, if_neg hangle]
  have hbreak : thematicBreak? #[soleLine (c :: rest)] { last := 1 } 0 = none := by
    simp [thematicBreak?, htext, isThematicBreak_letter hc]
  have hlist : list? item #[soleLine (c :: rest)] { last := 1 } 0 1 = none := by
    simp [list?, listMark?, htext, itemMark?_letter hc]
  have hdefinition : definition? #[soleLine (c :: rest)] { last := 1 } 0 = none := by
    have hbracket : c ≠ '[' := ne_of_isAlpha hc (by decide)
    simp [definition?, htext, hbracket]
  have helement : elementBlock? #[soleLine (c :: rest)] { last := 1 } 0 1 = none := by
    simp [elementBlock?, htext, startsHere_letter hc]
  have hraw : rawTextBlock? #[soleLine (c :: rest)] { last := 1 } 0 1 = none := by
    rw [rawTextBlock?, htext, Option.bind_some, rawTextEnd?_letter hc]
  have hheading : signHeading? #[soleLine (c :: rest)] { last := 1 } 0 = none := by
    rw [signHeading?, htext, Option.bind_some, heading?_letter hc]
  have hunderlined : underlinedHeading? #[soleLine (c :: rest)] { last := 1 } 0 1 = none := rfl
  simp only [blockAt, htable, hcode, hfence, hquote, hbreak, hlist, hdefinition, helement, hraw,
    hheading, hunderlined, Option.map_none]
  rfl

theorem trim_eq_self {s : List Char} (hfirst : s.head?.any isBlank = false)
    (hlast : s.getLast?.any isBlank = false) : trim s = s := by
  have hkeeps : ∀ t : List Char, t.head?.any isBlank = false → t.dropWhile isBlank = t := by
    intro t ht
    cases t with
    | nil => rfl
    | cons d t => exact List.dropWhile_cons_of_neg (by rw [Bool.not_eq_true]; exact ht)
  rw [trim, hkeeps s hfirst, Text.dropEndWhile, hkeeps s.reverse (by rwa [List.head?_reverse]),
    List.reverse_reverse]

theorem isBlank_letter (hc : c.isAlpha = true) : isBlank c = false := by
  have := toNat_of_isAlpha hc
  rw [← Bool.not_eq_true]
  simp only [isBlank, isFlankBlank, Bool.or_eq_true, Bool.and_eq_true, decide_eq_true_eq, beq_iff_eq]
  omega

/-- The syntax of a paragraph on a single line. -/
def soleParagraph (text : List Char) (pieces : List Syntax) : Syntax :=
  .node { kind := "paragraph", tag := "p", lines := some (0, 1) }
    [.node { kind := "inline", content := String.ofList text, lines := some (0, 1) } pieces]

theorem paragraph_line (hc : c.isAlpha = true)
    (hlast : (c :: rest).getLast?.any isBlank = false) :
    paragraph #[soleLine (c :: rest)] { last := 1 } 0 =
      { piece := soleParagraph (c :: rest) [], next := 1 } := by
  have hend : paragraphEnd #[soleLine (c :: rest)] { last := 1 } 1 1 = 1 := rfl
  have htext : joinBodies 0 (linesFrom #[soleLine (c :: rest)] 0 1) = c :: rest := rfl
  simp only [paragraph, hend, htext, Nat.sub_zero, Nat.zero_add]
  have hfirst : (c :: rest).head?.any isBlank = false := isBlank_letter hc
  rw [trim_eq_self hfirst hlast]
  rfl

/-- **A line that starts with a letter is one paragraph**, if it is the only one. -/
theorem parseBlocks_line (hc : c.isAlpha = true) (hbreak : '\n' ∉ c :: rest)
    (hlast : (c :: rest).getLast?.any isBlank = false) :
    parseBlocks (c :: rest) =
      { found := [soleParagraph (c :: rest) []], line := 1, tight := true } := by
  have hlevels : blockParser blockLevels =
      blockParser.parserWith (blockParser 19) (blockParser 18) := rfl
  have hfirst : blockAt (blockParser 19) (blockParser 18) #[soleLine (c :: rest)] { last := 1 } 0 1 =
      { found := [soleParagraph (c :: rest) []], line := 1 } := by
    rw [blockAt_line hc, paragraph_line hc hlast]
    rfl
  have hline : skipBlankLines #[soleLine (c :: rest)] { last := 1 } 1 0 = 0 := rfl
  have hout : isOutdented { last := 1 } (lineAt #[soleLine (c :: rest)] 0) = false := rfl
  rw [parseBlocks, linesOf_line hc hbreak, hlevels]
  simp [blockParser.parserWith, blocksFrom, hline, hout, hfirst]

/-- **The syntax of a document of one line** that starts with a letter and does not end with a blank. -/
theorem parseSyntax_line {text : List Char} (hn : normalize text = c :: rest) (hc : c.isAlpha = true)
    (hbreak : '\n' ∉ c :: rest) (hlast : (c :: rest).getLast?.any isBlank = false) :
    parseSyntax text = .ok [soleParagraph (c :: rest) (parseInline [] (c :: rest))] := by
  rw [parseSyntax, hn, parseBlocks_line hc hbreak hlast]
  simp [soleParagraph, readTexts, readText]

end Mdx.Markdown
