import Mdx.Proofs.Extended.Additive
import Mdx.Proofs.Generic.Located

/-!
# Errors are located in the document

Extending a document fails in one of three ways: a run of statements is not well formed, other content
follows it on its lines, or a piece of raw markup does not parse.  In each of them the error has a
position, and that is inside the text of the document.  An error in raw markup is placed by its offset
in the markup if that is known to stand in the document; if not, it has the position of the nearest node
around it that has one, and at last the root has.
-/

namespace Mdx

/-- The error has a position inside a text of this length. -/
def StructureError.Inside (length : Nat) (e : StructureError) : Prop :=
  ∃ p : Position, e.position = some p ∧ p.Inside length

/-! ### Errors in raw markup -/

namespace Element

/-- A place in a text of this length: the lines are those of the text, and the fallback position is
inside it. -/
structure Placement.Inside (length : Nat) (place : Placement) : Prop where
  lines : ∀ ix ∈ place.index, ix.length = length
  fallback : ∃ p : Position, place.fallback = some p ∧ p.Inside length

variable {length : Nat} {place : Placement}

theorem Placement.Inside.error (hp : place.Inside length) (cause : StructureCause)
    {start stop : Nat} (h : start ≤ stop) : (place.error cause start stop).Inside length := by
  cases hix : place.index with
  | none =>
    obtain ⟨p, hsome, hinside⟩ := hp.fallback
    refine ⟨p, ?_, hinside⟩
    rw [Placement.error, Placement.span, hix]
    exact hsome
  | some ix =>
    refine ⟨ix.span (place.base + start) (place.base + stop), ?_, ?_⟩
    · rw [Placement.error, Placement.span, hix]
      rfl
    · rw [← hp.lines ix hix]
      exact ix.inside_span (by omega)

theorem inside_endFragment {fault : Option LexicalFault} {stack : List OpenElement}
    {nodes : List Node} {e : StructureError} (hp : place.Inside length)
    (hs : ∀ o ∈ stack, o.tag.start ≤ o.tag.stop) (h : endFragment place fault stack nodes = .error e) :
    e.Inside length := by
  unfold endFragment at h
  split at h
  · cases h
    exact hp.error _ (Nat.le_succ _)
  · cases h
    exact hp.error _ (hs _ List.mem_cons_self)
  · cases h

/-- An error of matched tags is at a tag of the stack or of the tokens, or at the fault after them. -/
theorem inside_matchTags {src : List Char} {fault : Option LexicalFault} {ts : List Token}
    {stack : List OpenElement} {nodes : List Node} {e : StructureError} (hp : place.Inside length)
    (ht : ∀ t ∈ ts, t.start ≤ t.stop) (hs : ∀ o ∈ stack, o.tag.start ≤ o.tag.stop)
    (h : matchTags src place fault stack nodes ts = .error e) : e.Inside length := by
  induction ts generalizing stack nodes with
  | nil => exact inside_endFragment hp hs h
  | cons t rest ih =>
    obtain ⟨hfirst, hrest⟩ := List.forall_mem_cons.mp ht
    cases hk : t.kind with
    | text =>
      rw [matchTags_text hk] at h
      exact ih hrest hs h
    | comment =>
      rw [matchTags_comment hk] at h
      exact ih hrest hs h
    | selfClosing =>
      rw [matchTags_selfClosing hk] at h
      exact ih hrest hs h
    | openTag =>
      rw [matchTags_openTag hk] at h
      exact ih hrest (List.forall_mem_cons.mpr ⟨hfirst, hs⟩) h
    | closeTag =>
      cases stack with
      | nil =>
        simp only [matchTags, hk] at h
        cases h
        exact hp.error _ hfirst
      | cons o below =>
        by_cases hname : o.tag.name = t.name
        · rw [matchTags_closeTag hk o hname] at h
          exact ih hrest (List.forall_mem_cons.mp hs).2 h
        · rw [matchTags, hk] at h
          simp only [bne_iff_ne, ne_eq, hname, not_false_eq_true, if_true] at h
          cases h
          exact hp.error _ hfirst

/-- **An error of a piece of markup is inside the text that the markup has its place in.** -/
theorem inside_parseChildren {src : List Char} {e : StructureError} (hp : place.Inside length)
    (h : parseChildren src place = .error e) : e.Inside length := by
  unfold parseChildren at h
  split at h
  next e' hparse =>
    cases h
    obtain ⟨b, htiles, -⟩ := tokens_tiles src
    have ht : ∀ t ∈ (tokens src).1, t.start ≤ t.stop := fun t ht => (htiles.bounds ht).2.1.le
    exact inside_matchTags hp ht (List.forall_mem_nil _) hparse
  · cases h
  · cases h

end Element

namespace Extended

open Mdx.Element
open Mdx.Generic (PlacedAt SoundLines soundLines_cons soundLines_nil)
open Mdx.Markdown (Syntax)
open Mdx.Script

variable {text : List Char}

theorem inside_placement {nearest : Option Position} {h : NodeHead} (value : List Char)
    (hnearest : nearest.isSome) (hn : PlacedAt text nearest) (hp : PlacedAt text h.position) :
    (placement (some (.ofText text)) nearest h value).Inside text.length := by
  have hfallback : ∃ p : Position, h.position.or nearest = some p ∧ p.Inside text.length := by
    cases hpos : h.position with
    | none =>
      obtain ⟨p, hsome⟩ := Option.isSome_iff_exists.mp hnearest
      exact ⟨p, hsome, hn p hsome⟩
    | some p => exact ⟨p, rfl, hp p hpos⟩
  unfold placement
  dsimp only
  split
  next d p hdoc hpos =>
    cases hdoc
    split
    · refine ⟨?_, hfallback⟩
      rintro ix ⟨⟩
      rfl
    · exact ⟨fun ix hix => (by cases hix), hfallback⟩
  · exact ⟨fun ix hix => (by cases hix), hfallback⟩

theorem inside_elementOf {nearest : Option Position} {h : NodeHead} {e : StructureError}
    (hnearest : nearest.isSome) (hn : PlacedAt text nearest) (hp : PlacedAt text h.position)
    (he : elementOf (some (.ofText text)) nearest h = .error e) : e.Inside text.length := by
  unfold elementOf at he
  dsimp only at he
  split at he
  next e' hparse =>
    cases he
    exact inside_parseChildren (inside_placement _ hnearest hn hp) hparse
  · cases he

mutual

/-- **An error in raw markup is inside the text**, if the positions of the tree are. -/
theorem inside_reclassify : ∀ (n : Node) {nearest : Option Position} {e : StructureError},
    nearest.isSome → PlacedAt text nearest → (∀ x ∈ n.flatten, PlacedAt text x.position) →
      reclassify (some (.ofText text)) nearest n = .error e → e.Inside text.length
  | .leaf h, nearest, e, hsome, hn, hall, he => by
    have hp : PlacedAt text h.position := hall (.leaf h) (Node.mem_flatten.mpr (.inl rfl))
    rw [reclassify] at he
    split at he
    · exact inside_elementOf hsome hn hp he
    · cases he
  | .branch h cs, nearest, e, hsome, hn, hall, he => by
    have hp : PlacedAt text h.position := hall (.branch h cs) (Node.mem_flatten.mpr (.inl rfl))
    rw [reclassify] at he
    split at he
    · exact inside_elementOf hsome hn hp he
    · split at he
      next e' hcs =>
        cases he
        have hor : PlacedAt text (h.position.or nearest) := by
          intro p hor
          rcases Option.or_eq_some_iff.mp hor with hor | ⟨-, hor⟩
          · exact hp p hor
          · exact hn p hor
        refine inside_reclassifyList cs ?_ hor (fun x hx => hall x ?_) hcs
        · rw [Option.isSome_or, hsome, Bool.or_true]
        · rw [Node.flatten_eq]
          exact List.mem_cons_of_mem _ hx
      · cases he

theorem inside_reclassifyList : ∀ (ns : List Node) {nearest : Option Position} {e : StructureError},
    nearest.isSome → PlacedAt text nearest →
      (∀ x ∈ Node.flattenStack ns, PlacedAt text x.position) →
        reclassifyList (some (.ofText text)) nearest ns = .error e → e.Inside text.length
  | [], nearest, e, hsome, hn, hall, he => by
    rw [reclassifyList] at he
    cases he
  | n :: rest, nearest, e, hsome, hn, hall, he => by
    obtain ⟨hfirst, hrest⟩ : (∀ x ∈ n.flatten, PlacedAt text x.position) ∧
        ∀ x ∈ Node.flattenStack rest, PlacedAt text x.position := by
      rwa [Node.flattenStack_eq_append, List.forall_mem_append] at hall
    rw [reclassifyList] at he
    split at he
    next e' hm =>
      cases he
      exact inside_reclassify n hsome hn hfirst hm
    next m hm =>
      split at he
      next e' hms =>
        cases he
        exact inside_reclassifyList rest hsome hn hrest hms
      · cases he

end

/-! ### Errors in statements -/

theorem inside_splitStatements {pos : Nat} {e : StructureError}
    (h : splitStatements text pos (some (.ofText text)) = .error e) : e.Inside text.length := by
  unfold splitStatements at h
  split at h
  · cases h
  · cases h
    exact ⟨_, rfl, LineIndex.inside_span _ (Int.ofNat_le.mpr (Nat.le_add_right _ _))⟩

theorem inside_runFromSource {kind : StatementKind} {start : Int} {first : Node} {rest : List Node}
    {e : StructureError} (h : runFromSource (.ofText text) kind start first rest = .error e) :
    e.Inside text.length := by
  unfold runFromSource at h
  split at h
  next e' hsplit =>
    cases h
    exact inside_splitStatements hsplit
  next sts stop hsplit =>
    dsimp only at h
    split at h
    next hlt =>
      cases h
      exact ⟨_, rfl, LineIndex.inside_span _ (by omega)⟩
    · cases h

/-- **An error in a statement is inside the text**, if the top-level nodes have positions. -/
theorem inside_extractStatements {e : StructureError} : ∀ {nodes : List Node},
    (∀ n ∈ nodes, n.position.isSome) →
      extractStatements (some (.ofText text)) nodes = .error e → e.Inside text.length := by
  intro nodes
  induction hk : nodes.length using Nat.strong_induction_on generalizing nodes with
  | _ k ih =>
    subst hk
    intro hall h
    cases nodes with
    | nil =>
      rw [extractStatements] at h
      cases h
    | cons n rest =>
      obtain ⟨hn, hrest⟩ := List.forall_mem_cons.mp hall
      cases ho : opening (some (.ofText text)) n with
      | content =>
        rw [extractStatements_content ho] at h
        cases hr : extractStatements (some (.ofText text)) rest with
        | error e' =>
          rw [hr] at h
          cases h
          exact ih rest.length (Nat.lt_succ_self _) rfl hrest hr
        | ok out =>
          rw [hr] at h
          cases h
      | textRun kind literal =>
        -- only a paragraph without a position opens such a run
        rcases (opening_eq_textRun ho).2 with hno | hno
        · cases hno
        · rw [hno] at hn
          cases hn
      | sourceRun d kind start =>
        obtain ⟨hdoc, -⟩ := opening_eq_sourceRun ho
        cases hdoc
        cases hf : runFromSource (.ofText text) kind start n rest with
        | error e' =>
          simp only [extractStatements, ho, hf] at h
          cases h
          exact inside_runFromSource hf
        | ok r =>
          obtain ⟨found, stop⟩ := r
          rw [extractStatements_sourceRun ho hf] at h
          have hsub := (List.dropWhile_suffix (startsBefore stop) : _ <:+ rest)
          cases hr : extractStatements (some (.ofText text)) (rest.dropWhile (startsBefore stop)) with
          | error e' =>
            rw [hr] at h
            cases h
            exact ih _ (Nat.lt_succ_of_le hsub.length_le) rfl (fun m hm => hrest m (hsub.subset hm)) hr
          | ok out =>
            rw [hr] at h
            cases h

/-! ### Errors of a document -/

/-- A node that is written for a statement of the text has a position inside it. -/
theorem IsWritten.placedAt {m : Node} (h : IsWritten (some (.ofText text)) m) :
    PlacedAt text m.position := by
  obtain ⟨src, position, st, rfl, hnone | ⟨d, hdoc, hm, hlt, -⟩⟩ := h
  · subst hnone
    exact Generic.placedAt_none
  · cases hdoc
    rw [hm]
    rintro p ⟨⟩
    exact LineIndex.inside_span _ (Int.ofNat_le.mpr hlt.le)

/-- A valid tree that cannot be extended has an error in a statement or in raw markup. -/
theorem ofGeneric_eq_error {source : Option (List Char)} {tree : Node} {e : StructureError}
    (hv : tree.validate Vocabulary.generic "parse" = .ok ())
    (h : ofGeneric source tree = .error e) :
    extractStatements (source.map Document.ofText) tree.children = .error e ∨
      ∃ children : List Node,
        extractStatements (source.map Document.ofText) tree.children = .ok children ∧
        reclassify (source.map Document.ofText) none (.branch tree.head children) = .error e := by
  rw [ofGeneric] at h
  rcases error_or_of_bind h with hno | ⟨⟨⟩, -, h⟩
  · rw [hv] at hno
    cases hno
  rcases error_or_of_bind h with hextract | ⟨children, hextract, h⟩
  · exact .inl hextract
  rcases error_or_of_bind h with hclass | ⟨ext, hclass, h⟩
  · exact .inr ⟨children, hextract, hclass⟩
  rcases error_or_of_bind h with hlast | ⟨⟨⟩, -, hdone⟩
  · rw [validate_extended hv hextract hclass] at hlast
    cases hlast
  · cases hdone

/-- **Every failure is located inside the document.**  Take any text and any stream of Markdown tokens
that makes a tree of it, where each block of the top level has lines and no lines are counted back from
the end.  If the tree cannot be extended, the error has a position, whose offsets are in order and in the
text. -/
theorem failure_is_inside_document (text : List Char) (tokens : List Markdown.Token) (tree : Node)
    (e : StructureError) (hroot : ∀ s ∈ Syntax.ofTokens tokens, s.head.lines.isSome)
    (hlines : SoundLines (Syntax.ofTokens tokens))
    (htree : Generic.ofSyntax text (Syntax.ofTokens tokens) = .ok tree)
    (hfails : ofGeneric (some text) tree = .error e) :
    ∃ p : Position, e.position = some p ∧ 0 ≤ p.start.offset ∧ p.start.offset ≤ p.stop.offset ∧
      p.stop.offset ≤ (text.length : Int) := by
  obtain ⟨hkind, hposition, hsited, hblocks⟩ := Generic.sited_ofSyntax htree hlines
  rcases ofGeneric_eq_error (Generic.validate_ofSyntax htree hlines) hfails with hextract | ⟨children, hextract, hclass⟩
  · exact inside_extractStatements (hblocks hroot) hextract
  · have hall : ∀ x ∈ (Node.branch tree.head children).flatten, PlacedAt text x.position := by
      intro x hx
      rcases cases_of_mem_extract hextract hx with hhead | hx | hw
      · have hpos : x.position = tree.position := congrArg NodeHead.position hhead
        rw [hpos]
        exact (hsited tree (Node.mem_flatten.mpr (.inl rfl))).inside
      · exact (hsited x hx).inside
      · exact hw.placedAt
    have hraw : ¬tree.head.kind = "html" := by
      rw [show tree.head.kind = "root" from hkind]
      decide
    -- the root has a position, so every piece of raw markup has one around it
    rw [reclassify, if_neg hraw, Option.or_none] at hclass
    split at hclass
    next e' hlist =>
      cases hclass
      have hself := hall (.branch tree.head children) (Node.mem_flatten.mpr (.inl rfl))
      refine inside_reclassifyList children hposition hself (fun x hx => hall x ?_) hlist
      rw [Node.flatten_eq]
      exact List.mem_cons_of_mem _ hx
    · cases hclass

/-- The tokens of a quotation with an unclosed tag in it: its paragraph has no lines, and it has more
lines than its text. -/
def quotedTag : List Markdown.Token :=
  [.mk { kind := "blockquote_open", lines := some (0, 7) } .opening [],
   .mk { kind := "paragraph_open" } .opening [],
   .mk { kind := "inline", lines := some (0, 7) } .single
     [.mk { kind := "html_inline", content := "<b>" } .single []],
   .mk { kind := "paragraph_close" } .closing [],
   .mk { kind := "blockquote_close" } .closing []]

/-- The error of an unclosed tag in a quotation has the position of the quotation. -/
theorem failure_is_inside_document_quoted :
    (∀ s ∈ Syntax.ofTokens quotedTag, s.head.lines.isSome) ∧
    SoundLines (Syntax.ofTokens quotedTag) ∧
    ∃ (tree : Node) (e : StructureError),
      Generic.ofSyntax "> <b>\n".toList (Syntax.ofTokens quotedTag) = .ok tree ∧
      ofGeneric (some "> <b>\n".toList) tree = .error e ∧
      ∃ p : Position, e.position = some p ∧ 0 ≤ p.start.offset ∧ p.start.offset ≤ p.stop.offset ∧
        p.stop.offset ≤ ("> <b>\n".toList.length : Int) := by
  have hroot : ∀ s ∈ Syntax.ofTokens quotedTag, s.head.lines.isSome := by decide +kernel
  have hlines : SoundLines (Syntax.ofTokens quotedTag) := by
    have heq : Syntax.ofTokens quotedTag =
        [.node { kind := "blockquote", lines := some (0, 7) }
          [.node { kind := "paragraph" } [.node { kind := "inline", lines := some (0, 7) }
            [.node { kind := "html_inline", content := "<b>" } []]]]] := by
      rfl
    rw [heq]
    simp [soundLines_cons, soundLines_nil, Markdown.Syntax.head, Markdown.Syntax.children]
  have hrun : (Generic.ofSyntax "> <b>\n".toList (Syntax.ofTokens quotedTag)).toOption.map
      (fun tree => (ofGeneric (some "> <b>\n".toList) tree).isOk) = some false := by
    decide +kernel
  cases htree : Generic.ofSyntax "> <b>\n".toList (Syntax.ofTokens quotedTag) with
  | error e =>
    rw [htree] at hrun
    cases hrun
  | ok tree =>
    cases hext : ofGeneric (some "> <b>\n".toList) tree with
    | ok ext =>
      rw [htree] at hrun
      have hno : (ofGeneric (some "> <b>\n".toList) tree).isOk = false := Option.some.inj hrun
      rw [hext] at hno
      cases hno
    | error e =>
      exact ⟨hroot, hlines, tree, e, rfl, hext,
        failure_is_inside_document _ quotedTag tree e hroot hlines htree hext⟩

end Extended

end Mdx
