import Mdx.Proofs.Script.Cut

/-!
# Texts that do not close a group

A text is inert if the scan for the end of a group goes through it with the same brackets awaited as
before, whatever follows.  Characters that are neither brackets nor the start of a literal are inert, so
are whole quotes and brackets around an inert text (`inert_quote`, `Inert.bracketed`), and inert texts
one after another (`Inert.append`).  A group of braces around an inert text is read as one group
(`groupRest?_braces`).
-/

namespace Mdx.Script

/-- The scan for the end of a group goes through the text, whatever follows. -/
def Inert (x : List Char) : Prop :=
  ∀ (top : Char) (below u : List Char),
    scanGroup (x ++ u).length (top :: below) (x ++ u) = scanGroup u.length (top :: below) u

/-- The characters that start a literal, open a bracket or close one. -/
def marks : List Char :=
  ['\x27', '\x22', '\x60', '/', '\x7b', '\x7d', '[', ']', '(', ')']

/-- A text with no such characters. -/
def Plain (x : List Char) : Prop :=
  ∀ c ∈ x, c ∉ marks

instance (x : List Char) : Decidable (Plain x) :=
  List.decidableBAll (fun c => c ∉ marks) x

theorem Plain.cons {c : Char} {x : List Char} (hc : c ∉ marks) (hx : Plain x) : Plain (c :: x) :=
  List.forall_mem_cons.mpr ⟨hc, hx⟩

theorem Plain.append {x y : List Char} (hx : Plain x) (hy : Plain y) : Plain (x ++ y) :=
  List.forall_mem_append.mpr ⟨hx, hy⟩

theorem Plain.subset {x y : List Char} (hy : Plain y) (h : x ⊆ y) : Plain x :=
  fun c hc => hy c (h hc)

theorem inert_nil : Inert [] :=
  fun _ _ _ => rfl

theorem Inert.append {x y : List Char} (hx : Inert x) (hy : Inert y) : Inert (x ++ y) := by
  intro top below u
  rw [List.append_assoc, hx, hy]

theorem literalRest?_eq_none {c : Char} (hq : isQuote c = false) (hs : c ≠ '/') (rest : List Char) :
    literalRest? (c :: rest) = none := by
  have hslash : (c == '/') = false := beq_eq_false_iff_ne.mpr hs
  rw [literalRest?_cons, hq, hslash]
  rfl

/-- A character that is none of these starts no literal and is no bracket. -/
theorem not_mem_marks {c : Char} (h : c ∉ marks) :
    (∀ rest : List Char, literalRest? (c :: rest) = none) ∧ closerOf? c = none ∧ isCloser c = false := by
  simp only [marks, List.mem_cons, List.not_mem_nil, or_false, not_or] at h
  have hq : isQuote c = false := by simp [isQuote, h]
  exact ⟨literalRest?_eq_none hq h.2.2.2.1, by simp [closerOf?, h], by simp [isCloser, h]⟩

theorem inert_char {c : Char} (h : c ∉ marks) : Inert [c] := by
  obtain ⟨hlit, hopen, hclose⟩ := not_mem_marks h
  intro top below u
  rw [List.singleton_append, List.length_cons, scanGroup_char (hlit u), hopen, hclose]
  rfl

theorem Plain.inert {x : List Char} (h : Plain x) : Inert x := by
  induction x with
  | nil => exact inert_nil
  | cons c x ih =>
    obtain ⟨hc, hx⟩ := List.forall_mem_cons.mp h
    exact (inert_char hc).append (ih hx)

/-- A quote is passed over if nothing in it ends it. -/
theorem inert_quote {mark : Char} {x : List Char} (hm : isQuote mark = true)
    (h : ∀ u : List Char, quoteRest mark (x ++ u) = u) : Inert (mark :: x) := by
  intro top below u
  have hlit : literalRest? (mark :: (x ++ u)) = some u := by
    rw [literalRest?_cons, hm, if_pos rfl, h]
  have hroom : (x ++ u).length + 1 - ((x ++ u).length + 1 - u.length) = u.length := by
    rw [List.length_append]
    omega
  rw [List.cons_append, List.length_cons, scanGroup_literal hlit, hroom]

theorem closerOf?_cases {opening closing : Char} (h : closerOf? opening = some closing) :
    opening = '\x7b' ∧ closing = '\x7d' ∨ opening = '[' ∧ closing = ']' ∨
      opening = '(' ∧ closing = ')' := by
  unfold closerOf? at h
  split at h
  next ho => exact .inl ⟨beq_iff_eq.mp ho, (Option.some.inj h).symm⟩
  · split at h
    next ho => exact .inr (.inl ⟨beq_iff_eq.mp ho, (Option.some.inj h).symm⟩)
    · split at h
      next ho => exact .inr (.inr ⟨beq_iff_eq.mp ho, (Option.some.inj h).symm⟩)
      · cases h

theorem bracket_facts {opening closing : Char} (h : closerOf? opening = some closing) :
    (∀ rest : List Char, literalRest? (opening :: rest) = none) ∧
      (∀ rest : List Char, literalRest? (closing :: rest) = none) ∧
      closerOf? closing = none ∧ isCloser closing = true := by
  rcases closerOf?_cases h with ⟨rfl, rfl⟩ | ⟨rfl, rfl⟩ | ⟨rfl, rfl⟩
  all_goals
    exact ⟨literalRest?_eq_none rfl (by decide), literalRest?_eq_none rfl (by decide), rfl, rfl⟩

/-- The scan goes from an opening bracket before an inert text to the closing one after it. -/
theorem scanGroup_bracketed {opening closing : Char} (h : closerOf? opening = some closing)
    {x : List Char} (hx : Inert x) (stack u : List Char) :
    scanGroup (opening :: (x ++ closing :: u)).length stack (opening :: (x ++ closing :: u)) =
      if stack.isEmpty then .closed u else scanGroup u.length stack u := by
  obtain ⟨hopening, hclosing, hno, hcloser⟩ := bracket_facts h
  rw [List.length_cons, scanGroup_char (hopening _), h]
  dsimp only
  rw [hx, List.length_cons, scanGroup_char (hclosing u), hno, hcloser]
  simp

theorem Inert.bracketed {opening closing : Char} (h : closerOf? opening = some closing)
    {x : List Char} (hx : Inert x) : Inert (opening :: (x ++ [closing])) := by
  intro top below u
  have heq : opening :: (x ++ [closing]) ++ u = opening :: (x ++ closing :: u) := by simp
  rw [heq, scanGroup_bracketed h hx]
  rfl

/-- **Braces around an inert text are one group.** -/
theorem groupRest?_braces {x : List Char} (hx : Inert x) (u : List Char) :
    groupRest? ('\x7b' :: (x ++ '\x7d' :: u)) = some u := by
  rw [groupRest?, scanGroup_bracketed rfl hx]
  rfl

/-! ### Quotes -/

theorem quoteRest_char {mark c : Char} (hb : c ≠ '\\') (hm : c ≠ mark)
    (hn : c = '\n' → mark = '\x60') (rest : List Char) :
    quoteRest mark (c :: rest) = quoteRest mark rest := by
  have hb' : (c == '\\') = false := beq_eq_false_iff_ne.mpr hb
  have hm' : (c == mark) = false := beq_eq_false_iff_ne.mpr hm
  have hn' : (c == '\n' && mark != '\x60') = false := by
    by_cases hc : c = '\n'
    · rw [hn hc]
      simp
    · rw [beq_eq_false_iff_ne.mpr hc]
      rfl
  rw [quoteRest_cons, hb', hm', hn']
  rfl

theorem quoteRest_escape (mark c : Char) (rest : List Char) :
    quoteRest mark ('\\' :: c :: rest) = quoteRest mark rest := by
  rw [quoteRest_cons]
  rfl

theorem quoteRest_chars {mark : Char} {x : List Char} (h : ∀ c ∈ x, c ≠ '\\' ∧ c ≠ mark ∧ c ≠ '\n')
    (rest : List Char) : quoteRest mark (x ++ rest) = quoteRest mark rest := by
  induction x with
  | nil => rfl
  | cons c x ih =>
    obtain ⟨⟨hb, hm, hn⟩, hx⟩ := List.forall_mem_cons.mp h
    rw [List.cons_append, quoteRest_char hb hm fun hc => absurd hc hn]
    exact ih hx

theorem quoteRest_mark {mark : Char} (hb : mark ≠ '\\') (rest : List Char) :
    quoteRest mark (mark :: rest) = rest := by
  have hb' : (mark == '\\') = false := beq_eq_false_iff_ne.mpr hb
  rw [quoteRest_cons, hb', beq_self_eq_true]
  rfl

end Mdx.Script
