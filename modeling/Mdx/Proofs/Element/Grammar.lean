import Mdx.Element.Fragment

/-!
# The grammar of fragments

A fragment is a run of texts, comments, self-closing tags, and elements, which are an opening tag, a
fragment and a closing tag of the same name.  `Fragment ts` is the type of the derivations of the
tokens `ts`, and `Fragment.denote` the list of nodes that a derivation stands for.

The tag matcher works with a stack instead.  It accepts exactly the tokens that have a derivation,
and gives what the derivation stands for (`matchTags_eq_ok_iff`).

* From a derivation to the stack: matching the tokens of a derivation leaves the stack as it was and
  puts the nodes in front (`Fragment.matchTags_append`).
* From the stack to a derivation: `Closes` says what closes the open elements, and the tokens of
  every accepting run close them and go on with a fragment (`completes_of_matchTags`).
-/

namespace Mdx.Element

/-- A derivation of tokens as a fragment. -/
inductive Fragment : List Token → Type
  | nil : Fragment []
  | text {t : Token} {ts : List Token} (ht : t.kind = .text) (rest : Fragment ts) :
      Fragment (t :: ts)
  | comment {t : Token} {ts : List Token} (ht : t.kind = .comment) (rest : Fragment ts) :
      Fragment (t :: ts)
  | selfClosing {t : Token} {ts : List Token} (ht : t.kind = .selfClosing) (rest : Fragment ts) :
      Fragment (t :: ts)
  | element {first last : Token} {inner ts : List Token} (hf : first.kind = .openTag)
      (hl : last.kind = .closeTag) (hn : first.name = last.name) (body : Fragment inner)
      (rest : Fragment ts) : Fragment (first :: (inner ++ last :: ts))

namespace Fragment

/-- The nodes that a derivation stands for: a text that is not blank, and an element with the piece
of source from its first character to its last. -/
def denote (src : List Char) (place : Placement) : {ts : List Token} → Fragment ts → List Node
  | _, .nil => []
  | _, @text t _ _ rest =>
      let raw := slice src t.start t.stop
      if raw.all Text.isBlank then rest.denote src place
      else
        .leaf
          { kind := "text"
            value := some (String.ofList raw)
            position := place.span t.start t.stop } :: rest.denote src place
  | _, .comment _ rest => rest.denote src place
  | _, @selfClosing t _ _ rest =>
      .branch
        { kind := "jsx"
          value := some (String.ofList (slice src t.start t.stop))
          position := place.span t.start t.stop } [] :: rest.denote src place
  | _, @element first last _ _ _ _ _ body rest =>
      .branch
        { kind := "jsx"
          value := some (String.ofList (slice src first.start last.stop))
          position := place.span first.start last.stop } (body.denote src place) ::
        rest.denote src place

end Fragment

variable {src : List Char} {place : Placement} {fault : Option LexicalFault}

/-! ### One token -/

theorem endFragment_eq_ok_iff {stack : List OpenElement} {nodes ns : List Node} :
    endFragment place fault stack nodes = .ok ns ↔
      fault = none ∧ stack = [] ∧ nodes.reverse = ns := by
  unfold endFragment
  split <;> simp

theorem matchTags_text {t : Token} (ht : t.kind = .text) (stack : List OpenElement)
    (nodes : List Node) (ts : List Token) :
    matchTags src place fault stack nodes (t :: ts) =
      matchTags src place fault stack (textNodes src place t ++ nodes) ts := by
  rw [matchTags.eq_def]
  simp only [ht]

theorem matchTags_comment {t : Token} (ht : t.kind = .comment) (stack : List OpenElement)
    (nodes : List Node) (ts : List Token) :
    matchTags src place fault stack nodes (t :: ts) = matchTags src place fault stack nodes ts := by
  rw [matchTags.eq_def]
  simp only [ht]

theorem matchTags_selfClosing {t : Token} (ht : t.kind = .selfClosing) (stack : List OpenElement)
    (nodes : List Node) (ts : List Token) :
    matchTags src place fault stack nodes (t :: ts) =
      matchTags src place fault stack (elementNode src place t.start t.stop [] :: nodes) ts := by
  rw [matchTags.eq_def]
  simp only [ht]

theorem matchTags_openTag {t : Token} (ht : t.kind = .openTag) (stack : List OpenElement)
    (nodes : List Node) (ts : List Token) :
    matchTags src place fault stack nodes (t :: ts) =
      matchTags src place fault (⟨t, nodes⟩ :: stack) [] ts := by
  rw [matchTags.eq_def]
  simp only [ht]

theorem matchTags_closeTag {t : Token} (ht : t.kind = .closeTag) (o : OpenElement)
    (hn : o.tag.name = t.name) (stack : List OpenElement) (nodes : List Node) (ts : List Token) :
    matchTags src place fault (o :: stack) nodes (t :: ts) =
      matchTags src place fault stack
        (elementNode src place o.tag.start t.stop nodes.reverse :: o.before) ts := by
  rw [matchTags, ht]
  simp [hn]

/-! ### From a derivation to the stack -/

/-- **The tokens of a derivation leave the stack as it was** and add the nodes that the derivation
stands for. -/
theorem Fragment.matchTags_append {us : List Token} (d : Fragment us) :
    ∀ (stack : List OpenElement) (nodes : List Node) (ts : List Token),
      matchTags src place fault stack nodes (us ++ ts) =
        matchTags src place fault stack ((d.denote src place).reverse ++ nodes) ts := by
  induction d with
  | nil => intro stack nodes ts; rfl
  | @text t us ht rest ih =>
    intro stack nodes ts
    rw [List.cons_append, matchTags_text ht, ih, denote, textNodes, Text.isBlankText]
    split
    · rfl
    · rw [List.reverse_cons, List.append_assoc]
      rfl
  | @comment t us ht rest ih =>
    intro stack nodes ts
    rw [List.cons_append, matchTags_comment ht, ih, denote]
  | @selfClosing t us ht rest ih =>
    intro stack nodes ts
    rw [List.cons_append, matchTags_selfClosing ht, ih, denote, List.reverse_cons,
      List.append_assoc]
    rfl
  | @element first last inner us hf hl hn body rest ihb ihr =>
    intro stack nodes ts
    rw [List.cons_append, List.append_assoc, List.cons_append, matchTags_openTag hf, ihb,
      List.append_nil, matchTags_closeTag hl ⟨first, nodes⟩ hn, ihr, denote, List.reverse_reverse,
      List.reverse_cons, List.append_assoc]
    rfl

/-! ### From the stack to a derivation -/

/-- The tokens close the open elements of these names, innermost first: a fragment and a closing tag
for each of them. -/
inductive Closes : List String → List Token → Prop
  | nil : Closes [] []
  | cons {names : List String} {us ts : List Token} {t : Token} (d : Fragment us)
      (ht : t.kind = .closeTag) (h : Closes names ts) : Closes (t.name :: names) (us ++ t :: ts)

theorem Closes.extend (pre : List Token)
    (f : ∀ {us : List Token}, Fragment us → Fragment (pre ++ us)) {name : String}
    {names : List String} {ts : List Token} (h : Closes (name :: names) ts) :
    Closes (name :: names) (pre ++ ts) := by
  cases h with
  | cons d ht h =>
    rw [← List.append_assoc]
    exact .cons (f d) ht h

/-- An opening tag before tokens that close it makes an element, and leaves the tokens that close
what is around it. -/
theorem Closes.exists_element {t : Token} (ht : t.kind = .openTag) {names : List String}
    {ts : List Token} (h : Closes (t.name :: names) ts) :
    ∃ pre us : List Token, t :: ts = pre ++ us ∧ Closes names us ∧
      Nonempty (∀ {vs : List Token}, Fragment vs → Fragment (pre ++ vs)) := by
  generalize hname : t.name = name at h
  cases h with
  | @cons _ us ts c d hc h =>
    refine ⟨t :: (us ++ [c]), ts, by simp, h, ⟨fun {vs} d' => ?_⟩⟩
    rw [List.cons_append, List.append_assoc]
    exact .element ht hc hname d d'

/-- What the open elements ask of the tokens to come: tokens that close them, and a fragment. -/
def Completes (names : List String) (ts : List Token) : Prop :=
  ∃ us vs : List Token, ts = us ++ vs ∧ Closes names us ∧ Nonempty (Fragment vs)

theorem Completes.extend (pre : List Token)
    (f : ∀ {us : List Token}, Fragment us → Fragment (pre ++ us)) {names : List String}
    {ts : List Token} (h : Completes names ts) : Completes names (pre ++ ts) := by
  obtain ⟨us, vs, rfl, hus, ⟨d⟩⟩ := h
  cases names with
  | nil =>
    cases hus
    exact ⟨[], pre ++ vs, rfl, .nil, ⟨f d⟩⟩
  | cons name names =>
    exact ⟨pre ++ us, vs, (List.append_assoc ..).symm, hus.extend pre f, ⟨d⟩⟩

/-- The names of the open elements, innermost first. -/
def openNames (stack : List OpenElement) : List String :=
  stack.map fun o => o.tag.name

/-- **Whatever the matcher accepts completes the open elements.** -/
theorem completes_of_matchTags {ns : List Node} : ∀ (ts : List Token) (stack : List OpenElement)
    (nodes : List Node), matchTags src place fault stack nodes ts = .ok ns →
      fault = none ∧ Completes (openNames stack) ts := by
  intro ts
  induction ts with
  | nil =>
    intro stack nodes h
    rw [matchTags, endFragment_eq_ok_iff] at h
    obtain ⟨rfl, rfl, -⟩ := h
    exact ⟨rfl, [], [], rfl, .nil, ⟨.nil⟩⟩
  | cons t ts ih =>
    intro stack nodes h
    cases ht : t.kind with
    | text =>
      rw [matchTags_text ht] at h
      obtain ⟨hf, hc⟩ := ih _ _ h
      exact ⟨hf, hc.extend [t] (fun d => .text ht d)⟩
    | comment =>
      rw [matchTags_comment ht] at h
      obtain ⟨hf, hc⟩ := ih _ _ h
      exact ⟨hf, hc.extend [t] (fun d => .comment ht d)⟩
    | selfClosing =>
      rw [matchTags_selfClosing ht] at h
      obtain ⟨hf, hc⟩ := ih _ _ h
      exact ⟨hf, hc.extend [t] (fun d => .selfClosing ht d)⟩
    | openTag =>
      rw [matchTags_openTag ht] at h
      obtain ⟨hf, us, vs, rfl, hus, hvs⟩ := ih _ _ h
      obtain ⟨pre, us', heq, hus', ⟨f⟩⟩ := hus.exists_element ht
      have hc : Completes (openNames stack) (us' ++ vs) := ⟨us', vs, rfl, hus', hvs⟩
      rw [← List.cons_append, heq, List.append_assoc]
      exact ⟨hf, hc.extend pre f⟩
    | closeTag =>
      cases stack with
      | nil =>
        rw [matchTags, ht] at h
        cases h
      | cons o below =>
        by_cases hn : o.tag.name = t.name
        · rw [matchTags_closeTag ht o hn] at h
          obtain ⟨hf, us, vs, rfl, hus, hvs⟩ := ih _ _ h
          refine ⟨hf, t :: us, vs, rfl, ?_, hvs⟩
          rw [openNames, List.map_cons, hn]
          exact .cons Fragment.nil ht hus
        · rw [matchTags, ht] at h
          simp [hn] at h

/-- **The matcher accepts exactly the tokens that have a derivation**, and gives what it stands
for. -/
theorem matchTags_eq_ok_iff {ts : List Token} {ns : List Node} :
    matchTags src place fault [] [] ts = .ok ns ↔
      fault = none ∧ ∃ d : Fragment ts, d.denote src place = ns := by
  have hrun : ∀ d : Fragment ts,
      matchTags src place none [] [] ts = .ok (d.denote src place) := by
    intro d
    have h : matchTags src place none [] [] (ts ++ []) = _ := d.matchTags_append [] [] []
    rw [List.append_nil, List.append_nil] at h
    rw [h, matchTags, endFragment_eq_ok_iff, List.reverse_reverse]
    exact ⟨rfl, rfl, rfl⟩
  constructor
  · intro h
    obtain ⟨rfl, us, vs, rfl, hus, ⟨d⟩⟩ := completes_of_matchTags ts [] [] h
    cases hus
    exact ⟨rfl, d, Except.ok.inj ((hrun d).symm.trans h)⟩
  · rintro ⟨rfl, d, rfl⟩
    exact hrun d

theorem parseFragment_eq_ok_iff {ns : List Node} :
    parseFragment src place = .ok ns ↔
      (tokens src).2 = none ∧ ∃ d : Fragment (tokens src).1, d.denote src place = ns :=
  matchTags_eq_ok_iff

theorem parseFragment_eq_error_iff :
    (∃ e : StructureError, parseFragment src place = .error e) ↔
      ¬((tokens src).2 = none ∧ Nonempty (Fragment (tokens src).1)) := by
  constructor
  · rintro ⟨e, he⟩ ⟨hlex, ⟨d⟩⟩
    rw [parseFragment_eq_ok_iff.mpr ⟨hlex, d, rfl⟩] at he
    cases he
  · intro hno
    cases h : parseFragment src place with
    | error e => exact ⟨e, rfl⟩
    | ok ns =>
      obtain ⟨hlex, d, -⟩ := parseFragment_eq_ok_iff.mp h
      exact absurd ⟨hlex, ⟨d⟩⟩ hno

/-- **A piece of markup parses exactly if it lexes and its tokens are a fragment**, the nodes are
those of the derivation, and there is an error otherwise.  Every derivation of the tokens stands for
the same nodes. -/
theorem parseFragment_iff_derivation (src : List Char) (place : Placement) :
    (∀ ns : List Node, parseFragment src place = .ok ns ↔
        (tokens src).2 = none ∧ ∃ d : Fragment (tokens src).1, d.denote src place = ns) ∧
      ((∃ e : StructureError, parseFragment src place = .error e) ↔
        ¬((tokens src).2 = none ∧ Nonempty (Fragment (tokens src).1))) :=
  ⟨fun _ => parseFragment_eq_ok_iff, parseFragment_eq_error_iff⟩

end Mdx.Element
