import Mdx.Proofs.Extended.Shape
import Mdx.Proofs.Generic.Shape
import Mdx.Proofs.Script.LineEnding

/-!
# Extraction from texts with the same lines

A tree is made for each of two texts that have the same lines to the grammar.  Its blocks are then on lines
with the same numbers in both (`SamePlace`), but offsets differ by the carriage returns before them.

Offsets are compared through the rests of the texts.  A rest that is longer in the first text is longer in
the second (`SameLines.length_lt`), so a node ends before a run does in both texts or in neither
(`stop_lt_iff`).  That a node starts before the end of a run (`startsBefore_eq`) needs one thing more: the
node might start on an empty line, between whose carriage return and line feed the run ends; but the line
on which a run ends is not empty.  So the same nodes are covered, and statements are extracted alike
(`alike_extractStatements`).
-/

namespace Mdx

/-! ### Rests of texts with the same lines -/

namespace Script.SameLines

variable {s t u u' v v' e : List Char}

theorem eq_nil (h : SameLines [] t) : t = [] := by
  cases h
  rfl

theorem filter_eq (h : SameLines s t) : t.filter (· != '\r') = s := by
  induction h with
  | nil => rfl
  | char hr hn h ih => rw [List.filter_cons_of_pos (by simpa using hr), ih]
  | feed h ih => rw [List.filter_cons_of_pos (by decide), ih]
  | pair h ih =>
    rw [List.filter_cons_of_neg (by decide), List.filter_cons_of_pos (by decide), ih]

theorem length_le (hu : SameLines u u') (hv : SameLines v v') (hu' : u' <:+ e) (hv' : v' <:+ e)
    (h : u'.length ≤ v'.length) : u.length ≤ v.length := by
  have hsuffix : u' <:+ v' := List.suffix_of_suffix_length_le hu' hv' h
  rw [← hu.filter_eq, ← hv.filter_eq]
  exact (hsuffix.sublist.filter _).length_le

theorem length_lt (hu : SameLines u u') (hv : SameLines v v') (hu' : u' <:+ e) (hv' : v' <:+ e)
    (h : u.length < v.length) : u'.length < v'.length := by
  by_contra hle
  have := length_le hv hu hv' hu' (by omega)
  omega

/-- Rests that are equally long in the first text are so in the second, if they start at line feeds. -/
theorem length_le_of_break (hu : SameLines u u') (hv : SameLines v v') (hu' : u' <:+ e)
    (hv' : v' <:+ e) (hbreak : v' = [] ∨ ∃ next, v' = '\n' :: next) (h : v.length ≤ u.length) :
    v'.length ≤ u'.length := by
  by_contra hlt
  have hsuffix : u' <:+ v' := List.suffix_of_suffix_length_le hu' hv' (by omega)
  rcases hbreak with rfl | ⟨next, rfl⟩
  · simp at hlt
  · -- the rest is at least one line feed longer
    have hnext : u' <:+ next := by
      rcases List.suffix_cons_iff.mp hsuffix with heq | hnext
      · rw [heq] at hlt
        exact absurd (Nat.le_refl _) hlt
      · exact hnext
    have hfilter := (hnext.sublist.filter (· != '\r')).length_le
    rw [hu.filter_eq] at hfilter
    have hv₁ := hv.filter_eq
    rw [List.filter_cons_of_pos (by decide)] at hv₁
    have hlength := congrArg List.length hv₁
    rw [List.length_cons] at hlength
    omega

theorem afterFeeds (h : SameLines s t) :
    List.Forall₂ SameLines (afterFeeds s) (Mdx.afterFeeds t) := by
  induction h with
  | nil => exact .nil
  | char hr hn h ih =>
    rw [Mdx.afterFeeds, if_neg hn, Mdx.afterFeeds, if_neg hn]
    exact ih
  | feed h ih =>
    rw [Mdx.afterFeeds, if_pos rfl, Mdx.afterFeeds, if_pos rfl]
    exact .cons h ih
  | pair h ih =>
    rw [Mdx.afterFeeds, if_pos rfl, Mdx.afterFeeds, if_neg (by decide), Mdx.afterFeeds, if_pos rfl]
    exact .cons h ih

theorem lineRests (h : SameLines s t) : List.Forall₂ SameLines (lineRests s) (Mdx.lineRests t) :=
  .cons h h.afterFeeds

theorem restFrom (h : SameLines s t) (line : Nat) :
    SameLines (Generic.restFrom s line) (Generic.restFrom t line) := by
  have hs := Generic.getElem?_restFrom s line
  have ht := Generic.getElem?_restFrom t line
  rw [← h.afterFeeds.length_eq] at ht
  obtain ⟨hlt, hs⟩ := List.getElem?_eq_some_iff.mp hs
  obtain ⟨hlt', ht⟩ := List.getElem?_eq_some_iff.mp ht
  rw [← hs, ← ht]
  exact h.lineRests.get hlt hlt'

theorem restAfter (h : SameLines s t) (line : Nat) :
    SameLines (Generic.restAfter s line) (Generic.restAfter t line) := by
  have hlength := h.afterFeeds.length_eq
  rw [Generic.restAfter, Generic.restAfter]
  by_cases hlt : line < (Mdx.afterFeeds s).length
  · have hlt' : line < (Mdx.afterFeeds t).length := by omega
    rw [List.getElem?_eq_getElem hlt, List.getElem?_eq_getElem hlt']
    exact .feed (h.afterFeeds.get hlt hlt')
  · rw [List.getElem?_eq_none (by omega), List.getElem?_eq_none (by omega)]
    exact .nil

end Script.SameLines

/-! ### Blocks on the same lines -/

namespace Generic

open Mdx.Markdown

/-- Two nodes of one shape, for two texts, on lines with the same numbers. -/
structure SamePlace (d e : List Char) (n n' : Node) : Prop where
  shape : n.bare = n'.bare
  lines : ∃ (first last : Nat) (p p' : Position), n.position = some p ∧ n'.position = some p' ∧
    p.Spans d (restFrom d first) (restAfter d last) ∧ p'.Spans e (restFrom e first) (restAfter e last)

variable {d e : List Char}

theorem SamePiece.samePlace {s : Syntax} {n n' : Node} (h : SamePiece d e s.head n n')
    (hs : OnLines s) : SamePlace d e n n' := by
  obtain ⟨lines, hlines⟩ := Option.isSome_iff_exists.mp hs.isSome
  have h0 : 0 ≤ lines.1 := hs.counted.head lines hlines
  have hn := h.position
  have hn' := h.position'
  rw [blockPosition, hlines] at hn hn'
  dsimp only at hn hn'
  obtain ⟨p, hp, hspan⟩ := exists_linesPosition? d h0
  obtain ⟨p', hp', hspan'⟩ := exists_linesPosition? e h0
  rw [hp] at hn
  rw [hp'] at hn'
  exact ⟨h.shape, _, _, p, p', (Except.ok.inj hn).symm, (Except.ok.inj hn').symm, hspan, hspan'⟩

/-- **The trees of two texts that are one to the grammar** have one shape, and their blocks are on the
same lines. -/
theorem alike_parse (h : normalize e = normalize d) :
    Alike (fun tree tree' => tree.bare = tree'.bare ∧
        List.Forall₂ (SamePlace d e) tree.children tree'.children) (parse d) (parse e) := by
  have hsyntax : parseSyntax e = parseSyntax d := by
    rw [parseSyntax, parseSyntax, h]
  rw [parse, parse, hsyntax]
  refine (Alike.refl (T := Eq) (parseSyntax d) fun _ => rfl).attach.bind ?_
  rintro pieces _ ⟨hpieces, -, rfl⟩
  have hlines : ∀ s ∈ pieces, OnLines s := onLines_parseSyntax hpieces
  rw [ofSyntax, ofSyntax]
  refine (alike_blocks pieces fun s hs => (hlines s hs).counted).bind fun ns ns' hall => .ok ⟨?_, ?_⟩
  · rw [Node.bare_branch, Node.bare_branch, bareList_eq_of_samePiece hall]
  · refine hall.imp ?_
    rintro n n' ⟨s, hs, hsame⟩
    exact hsame.samePlace (hlines s hs)

end Generic

/-! ### Offsets and rests -/

namespace Extended

open Mdx.Script Mdx.Generic

section Offsets

variable {text u v : List Char} {n : Node} {p : Position}

theorem statementKeyword?_of_suffix (hu : u <:+ text) :
    statementKeyword? text (text.length - u.length) = (statementHere? u).map (·.1) := by
  rw [statementKeyword?, ← List.suffix_iff_eq_drop.mp hu]

theorem opening_of_none (hp : n.position = some p) (hs : p.Spans text u v)
    (hnone : statementHere? u = none) : opening (some (.ofText text)) n = .content := by
  have hkey : statementKeyword? (Document.ofText text).text p.start.offset.toNat = none := by
    show statementKeyword? text _ = none
    rw [hs.start_eq, Int.toNat_natCast, statementKeyword?_of_suffix hs.start_suffix, hnone]
    rfl
  unfold opening
  split
  · rw [hp]
    dsimp only
    rw [hkey]
  · rfl

theorem opening_of_ne (hk : n.kind ≠ "paragraph") (doc : Option Document) :
    opening doc n = .content :=
  if_neg hk

theorem opening_of_some (hk : n.kind = "paragraph") (hp : n.position = some p) (hs : p.Spans text u v)
    {kind : StatementKind} {body : List Char} (hsome : statementHere? u = some (kind, body)) :
    opening (some (.ofText text)) n = .sourceRun (.ofText text) kind p.start.offset := by
  have hkey : statementKeyword? (Document.ofText text).text p.start.offset.toNat = some kind := by
    show statementKeyword? text _ = some kind
    rw [hs.start_eq, Int.toNat_natCast, statementKeyword?_of_suffix hs.start_suffix, hsome]
    rfl
  unfold opening
  rw [if_pos hk, hp]
  dsimp only
  rw [hkey]

theorem startsBefore_iff (hp : n.position = some p) (hs : p.Spans text u v) {after : List Char}
    (hafter : after <:+ text) :
    startsBefore (text.length - after.length) n = true ↔ after.length < u.length := by
  have hle := hafter.length_le
  have hle' := hs.start_suffix.length_le
  rw [startsBefore, hp, Option.any_some, decide_eq_true_eq, hs.start_eq]
  omega

end Offsets

theorem not_follows_of_mem_lineRests {text u : List Char} (h : u ∈ lineRests text) :
    ¬Follows u text := by
  rintro ⟨w, c, htext, hc⟩
  rcases List.mem_cons.mp h with rfl | h
  · have hlength := congrArg List.length htext
    rw [List.length_append, List.length_cons] at hlength
    omega
  · have hfeed : '\n' :: u <:+ text := mem_afterFeeds_iff.mp h
    have hchar : c :: u <:+ text := ⟨w, htext.symm⟩
    have hsame : c :: u <:+ '\n' :: u := List.suffix_of_suffix_length_le hchar hfeed (by simp)
    exact hc (List.cons.inj (hsame.eq_of_length (by simp))).1

/-! ### Runs in texts with the same lines -/

/-- Where a run ends in two texts: at the same line feed, which does not end an empty line, or with the
texts. -/
structure SameEnd (d e after after' : List Char) : Prop where
  same : SameLines after after'
  suffix : after <:+ d
  suffix' : after' <:+ e
  ends' : after' = [] ∨ ∃ next, after' = '\n' :: next
  follows : after = [] ∨ Follows after d

section Runs

variable {d e after after' : List Char} {n n' : Node}

/-- **The same nodes start before the end of a run.** -/
theorem SameEnd.startsBefore_eq (hend : SameEnd d e after after') (h : SameLines d e)
    (hn : SamePlace d e n n') :
    startsBefore (d.length - after.length) n = startsBefore (e.length - after'.length) n' := by
  obtain ⟨first, last, p, p', hp, hp', hs, hs'⟩ := hn.lines
  rw [Bool.eq_iff_iff, startsBefore_iff hp hs hend.suffix, startsBefore_iff hp' hs' hend.suffix']
  have hfrom := h.restFrom first
  constructor
  · intro hlt
    exact hend.same.length_lt hfrom hend.suffix' hs'.start_suffix hlt
  · intro hlt
    by_contra hge
    have hle := hend.same.length_le hfrom hend.suffix' hs'.start_suffix hlt.le
    have hsuffix : restFrom d first <:+ after :=
      List.suffix_of_suffix_length_le hs.start_suffix hend.suffix (by omega)
    have heq : restFrom d first = after := hsuffix.eq_of_length (by omega)
    rcases hend.follows with rfl | hfollows
    · rw [heq] at hfrom
      rw [hfrom.eq_nil] at hlt
      cases hlt
    · rw [← heq] at hfollows
      exact not_follows_of_mem_lineRests (restFrom_mem d first) hfollows

/-- **The same nodes reach past the end of a run.** -/
theorem SameEnd.stop_lt_iff (hend : SameEnd d e after after') (h : SameLines d e)
    (hn : SamePlace d e n n') :
    ((d.length - after.length : Nat) : Int) < (n.position.map (·.stop.offset)).getD 0 ↔
      ((e.length - after'.length : Nat) : Int) < (n'.position.map (·.stop.offset)).getD 0 := by
  obtain ⟨first, last, p, p', hp, hp', hs, hs'⟩ := hn.lines
  have hafter := h.restAfter last
  have hle := hend.suffix.length_le
  have hle' := hend.suffix'.length_le
  have hstop := hs.stop_suffix.length_le
  have hstop' := hs'.stop_suffix.length_le
  rw [hp, hp', Option.map_some, Option.map_some, Option.getD_some, Option.getD_some, hs.stop_eq,
    hs'.stop_eq]
  constructor
  · intro hlt
    have := hafter.length_lt hend.same hs'.stop_suffix hend.suffix' (by omega)
    omega
  · intro hlt
    by_contra hge
    have := hafter.length_le_of_break hend.same hs'.stop_suffix hend.suffix' hend.ends' (by omega)
    omega

/-- What a run of statements in two texts is: statements that are reclassified alike, and ends before
which the same nodes start. -/
structure SameCut (d e : List Char) (r r' : List Node × Nat) : Prop where
  nodes : List.Forall₂ (LikeNodes (some (.ofText d)) (some (.ofText e))) r.1 r'.1
  covers : ∀ m m' : Node, SamePlace d e m m' → startsBefore r.2 m = startsBefore r'.2 m'

theorem sameEnd_of_statementRun (hs : Unbroken d) {u u' : List Char} (hline : u ∈ lineRests d)
    (hu' : u' <:+ e) {sts sts' : List Statement} (hrun : statementRun d.length u = .ok (sts, after))
    (hrun' : statementRun e.length u' = .ok (sts', after')) (hsame : SameLines after after') :
    SameEnd d e after after' := by
  have hu := suffix_of_mem_lineRests hline
  obtain ⟨hsep, -, hends⟩ := separated_of_statementRun hu.length_le hrun
  obtain ⟨hsep', -, hends'⟩ := separated_of_statementRun hu'.length_le hrun'
  refine ⟨hsame, hsep.suffix.trans hu, hsep'.suffix.trans hu', hends', ?_⟩
  rcases hends with rfl | ⟨next, rfl⟩
  · exact .inl rfl
  · exact .inr ((follows_statementRun (hs.of_mem hline) hrun).of_suffix hu)

theorem forall₂_likeNodes {doc doc' : Option Document} {f g : Statement → Node}
    (hf : ∀ st, IsStatement (f st) ∧ (f st).kind = st.kind.keyword)
    (hg : ∀ st, IsStatement (g st) ∧ (g st).kind = st.kind.keyword) {sts sts' : List Statement}
    (h : sts.map Statement.kind = sts'.map Statement.kind) :
    List.Forall₂ (LikeNodes doc doc') (sts.map f) (sts'.map g) := by
  induction sts generalizing sts' with
  | nil =>
    cases sts' with
    | nil => exact .nil
    | cons st' rest' => cases h
  | cons st rest ih =>
    cases sts' with
    | nil => cases h
    | cons st' rest' =>
      obtain ⟨hk, hrest⟩ := List.cons.inj h
      refine .cons ((hf st).1.likeNodes (hg st').1 ?_) (ih hrest)
      rw [(hf st).2, (hg st').2, hk]

end Runs

section Lists

variable {α β : Type} {R : α → β → Prop} {p : α → Bool} {q : β → Bool}
  (hpq : ∀ a b, R a b → p a = q b)

include hpq

theorem forall₂_dropWhile {xs : List α} {ys : List β} (h : List.Forall₂ R xs ys) :
    List.Forall₂ R (xs.dropWhile p) (ys.dropWhile q) := by
  induction h with
  | nil => exact .nil
  | cons hab h ih =>
    rw [List.dropWhile_cons, List.dropWhile_cons, hpq _ _ hab]
    split
    · exact ih
    · exact .cons hab h

theorem forall₂_takeWhile {xs : List α} {ys : List β} (h : List.Forall₂ R xs ys) :
    List.Forall₂ R (xs.takeWhile p) (ys.takeWhile q) := by
  induction h with
  | nil => exact .nil
  | cons hab h ih =>
    rw [List.takeWhile_cons, List.takeWhile_cons, hpq _ _ hab]
    split
    · exact .cons hab ih
    · exact .nil

omit hpq in
theorem forall₂_getLastD {xs : List α} {ys : List β} (h : List.Forall₂ R xs ys) {a : α} {b : β}
    (hab : R a b) : R (xs.getLastD a) (ys.getLastD b) := by
  induction h generalizing a b with
  | nil => exact hab
  | cons hxy h ih =>
    rw [List.getLastD_cons, List.getLastD_cons]
    exact ih hxy

end Lists

section Extraction

variable {d e : List Char} {n n' : Node} {rest rest' : List Node}

/-- **A run is cut out of both texts alike**, or fails in both. -/
theorem alike_runFromSource (h : SameLines d e) (hs : Unbroken d) (kind : StatementKind)
    (hn : SamePlace d e n n') (hrest : List.Forall₂ (SamePlace d e) rest rest') {p p' : Position}
    (hp : n.position = some p) (hp' : n'.position = some p') :
    Alike (SameCut d e) (runFromSource (.ofText d) kind p.start.offset n rest)
      (runFromSource (.ofText e) kind p'.start.offset n' rest') := by
  obtain ⟨first, last, q, q', hq, hq', hspan, hspan'⟩ := hn.lines
  obtain rfl : p = q := Option.some.inj (hp.symm.trans hq)
  obtain rfl : p' = q' := Option.some.inj (hp'.symm.trans hq')
  have hline := restFrom_mem d first
  have hu := hspan.start_suffix
  have hu' := hspan'.start_suffix
  have hdrop : d.drop p.start.offset.toNat = restFrom d first := by
    rw [hspan.start_eq, Int.toNat_natCast, ← List.suffix_iff_eq_drop.mp hu]
  have hdrop' : e.drop p'.start.offset.toNat = restFrom e first := by
    rw [hspan'.start_eq, Int.toNat_natCast, ← List.suffix_iff_eq_drop.mp hu']
  unfold runFromSource splitStatements
  simp only [Document.ofText, hdrop, hdrop']
  rcases alike_statementRun d.length e.length (h.restFrom first) (hs.of_mem hline) with
    ⟨⟨sts, after⟩, ⟨sts', after'⟩, hrun, hrun', hsame⟩ | ⟨f, f', hf, hf'⟩
  · have hend := sameEnd_of_statementRun hs hline hu' hrun hrun' hsame.after
    have hcovers : ∀ m m' : Node, SamePlace d e m m' →
        startsBefore (d.length - after.length) m = startsBefore (e.length - after'.length) m' :=
      fun m m' hm => hend.startsBefore_eq h hm
    have hlast : SamePlace d e (lastCovered (d.length - after.length) n rest)
        (lastCovered (e.length - after'.length) n' rest') :=
      forall₂_getLastD (forall₂_takeWhile hcovers (.cons hn hrest)) hn
    rw [hrun, hrun']
    dsimp only
    by_cases hlt : ((d.length - after.length : Nat) : Int) <
        ((lastCovered (d.length - after.length) n rest).position.map (·.stop.offset)).getD 0
    · rw [if_pos hlt, if_pos ((hend.stop_lt_iff h hlast).mp hlt)]
      exact .error
    · rw [if_neg hlt, if_neg (mt (hend.stop_lt_iff h hlast).mpr hlt)]
      refine .ok ⟨forall₂_likeNodes ?_ ?_ hsame.kinds, hcovers⟩
      · exact fun st => ⟨isStatement_statementNode _ _ st, rfl⟩
      · exact fun st => ⟨isStatement_statementNode _ _ st, rfl⟩
  · rw [hf, hf']
    exact .error

theorem extractStatements_error {doc : Option Document} {document : Document} {kind : StatementKind}
    {start : Int} {error : StructureError} (ho : opening doc n = .sourceRun document kind start)
    (hf : runFromSource document kind start n rest = .error error) :
    extractStatements doc (n :: rest) = .error error := by
  rw [extractStatements, ho]
  simp only [hf]

/-- **Statements are extracted from both texts alike**, or fail to be in both. -/
theorem alike_extractStatements (h : SameLines d e) (hs : Unbroken d) {nodes nodes' : List Node}
    (hnodes : List.Forall₂ (SamePlace d e) nodes nodes') :
    Alike (List.Forall₂ (LikeNodes (some (.ofText d)) (some (.ofText e))))
      (extractStatements (some (.ofText d)) nodes) (extractStatements (some (.ofText e)) nodes') := by
  induction hk : nodes.length using Nat.strong_induction_on generalizing nodes nodes' with
  | _ k ih =>
    subst hk
    cases hnodes with
    | nil =>
      rw [extractStatements, extractStatements]
      exact .ok .nil
    | @cons n n' rest rest' hn hrest =>
      -- a node that stays in both
      have hkept (ho : opening (some (.ofText d)) n = .content)
          (ho' : opening (some (.ofText e)) n' = .content) :
          Alike (List.Forall₂ (LikeNodes (some (.ofText d)) (some (.ofText e))))
            (extractStatements (some (.ofText d)) (n :: rest))
            (extractStatements (some (.ofText e)) (n' :: rest')) := by
        rw [extractStatements_content ho, extractStatements_content ho']
        refine (ih rest.length (by simp) hrest rfl).map fun out out' hout => ?_
        exact .cons (alike_reclassify hn.shape) hout
      obtain ⟨first, last, p, p', hp, hp', hspan, hspan'⟩ := hn.lines
      have hkind : n.kind = n'.kind := by
        rw [← Node.kind_bare n, hn.shape, Node.kind_bare]
      by_cases hpar : n.kind = "paragraph"
      swap
      · exact hkept (opening_of_ne hpar _) (opening_of_ne (hkind ▸ hpar) _)
      rcases sameLines_statementHere? (h.restFrom first) with
        ⟨hnone, hnone'⟩ | ⟨kind, body, body', hbody, hbody', -⟩
      · exact hkept (opening_of_none hp hspan hnone) (opening_of_none hp' hspan' hnone')
      have ho := opening_of_some hpar hp hspan hbody
      have ho' := opening_of_some (hkind ▸ hpar) hp' hspan' hbody'
      rcases alike_runFromSource h hs kind hn hrest hp hp' with
        ⟨⟨found, stop⟩, ⟨found', stop'⟩, hf, hf', hcut⟩ | ⟨f, f', hf, hf'⟩
      · rw [extractStatements_sourceRun ho hf, extractStatements_sourceRun ho' hf']
        have hdrop := forall₂_dropWhile hcut.covers hrest
        have hlt : (rest.dropWhile (startsBefore stop)).length < (n :: rest).length :=
          Nat.lt_succ_of_le (List.dropWhile_suffix _).length_le
        refine (ih _ hlt hdrop rfl).map fun out out' hout => ?_
        exact List.rel_append hcut.nodes hout
      · rw [extractStatements_error ho hf, extractStatements_error ho' hf']
        exact .error

end Extraction

end Extended

end Mdx
