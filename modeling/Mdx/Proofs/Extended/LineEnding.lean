import Mdx.Proofs.Element.Visible
import Mdx.Proofs.Extended.Aligned
import Mdx.Proofs.Extended.Regular

/-!
# Line endings

The grammar takes a carriage return, with or without a line feed after it, as a line break, but the line
index and the scanner of statements look for line feeds only.

* With a carriage return before each line feed the lines stay where they are, and a document is extended
  alike, as long as no statement has a backslash before a line feed in it.
* With a carriage return in place of each line feed the whole document is one line to the index, so that
  all its blocks start at its first character.  If no statement opens there, none is found at all.

`line_endings_keep_kinds` says this of the kinds at the top level, and
`return_breaks_hide_statements` gives documents that are not extended alike.
-/

namespace Mdx

open Mdx.Script Mdx.Markdown

/-! ### Documents that are one to the grammar -/

/-- The text with a carriage return before each line feed. -/
def pairBreaks (s : List Char) : List Char :=
  s.flatMap fun c => if c = '\n' then ['\r', '\n'] else [c]

/-- The text with a carriage return in place of each line feed. -/
def returnBreaks (s : List Char) : List Char :=
  s.map fun c => if c = '\n' then '\r' else c

theorem sameLines_pairBreaks {s : List Char} (h : '\r' ∉ s) : SameLines s (pairBreaks s) := by
  induction s with
  | nil => exact .nil
  | cons c rest ih =>
    obtain ⟨hc, hrest⟩ := not_or.mp (mt List.mem_cons.mpr h)
    rw [pairBreaks, List.flatMap_cons]
    by_cases hn : c = '\n'
    · subst hn
      exact .pair (ih hrest)
    · rw [if_neg hn]
      exact .char (Ne.symm hc) hn (ih hrest)

theorem normalize_of_sameLines {s t : List Char} (h : SameLines s t) : normalize t = normalize s := by
  induction h with
  | nil => rfl
  | char hr hn h ih => rw [normalize_cons hr, normalize_cons hr, ih]
  | feed h ih => rw [normalize_cons (by decide), normalize_cons (by decide), ih]
  | pair h ih =>
    rw [Markdown.normalize, ih, normalize_cons (by decide)]
    rfl

theorem not_mem_returnBreaks (s : List Char) : '\n' ∉ returnBreaks s := by
  intro h
  obtain ⟨c, -, hc⟩ := List.mem_map.mp h
  split at hc
  · cases hc
  · contradiction

theorem normalize_return {s : List Char} (hs : '\n' ∉ s) :
    normalize ('\r' :: s) = '\n' :: normalize s := by
  cases s with
  | nil => rfl
  | cons c rest =>
    have hc : c ≠ '\n' := fun hc => hs (hc ▸ List.mem_cons_self)
    rw [Markdown.normalize]
    rintro r heq
    exact hc (List.cons.inj heq).1

theorem normalize_returnBreaks {s : List Char} (h : '\r' ∉ s) :
    normalize (returnBreaks s) = normalize s := by
  induction s with
  | nil => rfl
  | cons c rest ih =>
    obtain ⟨hc, hrest⟩ := not_or.mp (mt List.mem_cons.mpr h)
    rw [normalize_cons (Ne.symm hc), ← ih hrest, returnBreaks, List.map_cons]
    by_cases hn : c = '\n'
    · subst hn
      exact normalize_return (not_mem_returnBreaks rest)
    · rw [if_neg hn]
      exact normalize_cons (Ne.symm hc) _

theorem lineRests_returnBreaks (s : List Char) : lineRests (returnBreaks s) = [returnBreaks s] := by
  rw [lineRests, afterFeeds_of_not_mem (not_mem_returnBreaks s)]

/-! ### Statements at the start of a line -/

theorem apply_returnBreaks {α : Type} (g : Char → α) (h : g '\r' = g '\n') (c : Char) :
    g (if c = '\n' then '\r' else c) = g c := by
  split
  next hc => rw [hc, h]
  · rfl

theorem isKeywordEnd_returnBreaks (s : List Char) : isKeywordEnd (returnBreaks s) = isKeywordEnd s := by
  cases s with
  | nil => rfl
  | cons c rest => exact apply_returnBreaks (fun c => isKeywordEnd [c]) (by decide) c

/-- A word without line breaks stands in front of both texts or of neither. -/
theorem returnBreaks_eq_append_iff {s w r : List Char} (hw : ∀ c ∈ w, c ≠ '\r' ∧ c ≠ '\n') :
    returnBreaks s = w ++ r ↔ ∃ u : List Char, s = w ++ u ∧ returnBreaks u = r := by
  induction w generalizing s with
  | nil => exact ⟨fun h => ⟨s, rfl, h⟩, fun ⟨u, hu, h⟩ => hu ▸ h⟩
  | cons c w ih =>
    obtain ⟨⟨hr, hn⟩, hw⟩ := List.forall_mem_cons.mp hw
    constructor
    · intro h
      obtain ⟨a, s, rfl, ha, hs⟩ := List.map_eq_cons_iff.mp h
      obtain ⟨u, rfl, hu⟩ := (ih hw).mp hs
      split at ha
      · exact absurd ha.symm hr
      · exact ⟨u, by rw [ha, List.cons_append], hu⟩
    · rintro ⟨u, rfl, hu⟩
      rw [List.cons_append, returnBreaks, List.map_cons, if_neg hn]
      exact congrArg (c :: ·) ((ih hw).mpr ⟨u, rfl, hu⟩)

theorem keywordHere?_returnBreaks (s : List Char) : keywordHere? (returnBreaks s) = keywordHere? s := by
  refine Option.ext fun kind => ?_
  simp only [keywordHere?_eq_some_iff, returnBreaks_eq_append_iff (ne_break_of_mem_keyword kind)]
  constructor
  · rintro ⟨_, ⟨u, rfl, rfl⟩, hend⟩
    exact ⟨u, rfl, isKeywordEnd_returnBreaks u ▸ hend⟩
  · rintro ⟨u, rfl, hend⟩
    exact ⟨_, ⟨u, rfl, rfl⟩, (isKeywordEnd_returnBreaks u).trans hend⟩

/-- **The first line opens a statement in both texts or in neither.** -/
theorem statementHere?_returnBreaks (s : List Char) :
    statementHere? (returnBreaks s) = (statementHere? s).map (Prod.map id returnBreaks) := by
  have hindent : (returnBreaks s).dropWhile Text.isIndent =
      returnBreaks (s.dropWhile Text.isIndent) := by
    rw [returnBreaks, List.dropWhile_map]
    congr 2
    exact funext fun c => apply_returnBreaks Text.isIndent (by decide) c
  rw [statementHere?, hindent, keywordHere?_returnBreaks, statementHere?, Option.map_map]
  rfl

namespace Extended

open Mdx.Generic

/-! ### Extraction that keeps the nodes -/

section Kept

variable {doc : Option Document} {nodes : List Node} {segs : List Segment}

theorem extractStatements_eq_self (h : ∀ n ∈ nodes, opening doc n = .content) :
    extractStatements doc nodes = .ok nodes := by
  induction nodes with
  | nil => rw [extractStatements]
  | cons n rest ih =>
    obtain ⟨hn, hrest⟩ := List.forall_mem_cons.mp h
    rw [extractStatements_content hn, ih hrest]
    rfl

theorem Extraction.opening_of_kept (h : Extraction doc nodes segs) {n : Node}
    (hn : Segment.kept n ∈ segs) : opening doc n = .content := by
  induction h with
  | nil => cases hn
  | content ho h ih =>
    rcases List.mem_cons.mp hn with heq | hn
    · cases heq
      exact ho
    · exact ih hn
  | textRun ho hf h ih => exact ih (List.mem_of_ne_of_mem (by simp) hn)
  | sourceRun ho hf h ih => exact ih (List.mem_of_ne_of_mem (by simp) hn)

/-- A node that is written is a statement, or it stood there before and stays. -/
theorem Extraction.statement_or_content (h : Extraction doc nodes segs) {m : Node}
    (hm : m ∈ segs.flatMap Segment.written) :
    IsStatement m ∨ m ∈ nodes ∧ opening doc m = .content := by
  obtain ⟨seg, hseg, hm⟩ := List.mem_flatMap.mp hm
  cases seg with
  | kept n =>
    obtain rfl := List.mem_singleton.mp hm
    refine .inr ⟨?_, h.opening_of_kept hseg⟩
    rw [← h.flatMap_taken]
    exact List.mem_flatMap.mpr ⟨_, hseg, List.mem_singleton_self m⟩
  | run first more statements =>
    obtain ⟨-, -, hs⟩ := h.sound _ hseg
    exact .inl (hs m hm)

theorem Extraction.written_eq (h : Extraction doc nodes segs)
    (hno : ∀ m ∈ segs.flatMap Segment.written, ¬IsStatement m) :
    segs.flatMap Segment.written = nodes := by
  rw [← h.flatMap_taken]
  refine List.flatMap_congr fun seg hseg => ?_
  cases seg with
  | kept n => rfl
  | run first more statements =>
    obtain ⟨-, hne, hs⟩ := h.sound _ hseg
    obtain ⟨m, hm⟩ := List.exists_mem_of_ne_nil _ hne
    exact absurd (hs m hm) (hno m (List.mem_flatMap.mpr ⟨_, hseg, hm⟩))

end Kept

/-! ### Kinds at the top level -/

/-- The kinds at the top level of the extended tree of a document, if it has one. -/
def topKinds (text : List Char) : Option (List String) :=
  (parse text).toOption.bind fun tree => (ofGeneric (some text) tree).toOption.map childKinds

theorem topKinds_of_parse {text : List Char} {tree : Node} (h : parse text = .ok tree) :
    topKinds text = (ofGeneric (some text) tree).toOption.map childKinds := by
  rw [topKinds, h]
  rfl

theorem topKinds_of_error {text : List Char} {f : Failure} (h : parse text = .error f) :
    topKinds text = none := by
  rw [topKinds, h]
  rfl

/-- The kind of a node after raw markup is reclassified. -/
def extendedKind (n : Node) : String :=
  if n.kind = "html" then "jsx" else n.kind

theorem Reclassified.kind_eq_extendedKind {doc : Option Document} {nearest : Option Position}
    {n m : Node} (h : Reclassified doc nearest n m) : m.kind = extendedKind n := by
  by_cases hk : n.kind = "html"
  · cases h with
    | raw _ _ => exact (if_pos hk).symm
    | leaf hne => exact absurd hk hne
    | branch hne _ => exact absurd hk hne
  · rw [h.kind_eq hk, extendedKind, if_neg hk]

section Kinds

variable {d e text : List Char} {tree : Node} {ks : List String}

theorem exists_of_topKinds (h : topKinds text = some ks) :
    ∃ (tree : Node) (out : List Node), parse text = .ok tree ∧
      (∀ n ∈ tree.children, n.kind ∈ Vocabulary.generic) ∧
      extractStatements (some (.ofText text)) tree.children = .ok out ∧ out.map extendedKind = ks := by
  obtain ⟨tree, htree, h⟩ := Option.bind_eq_some_iff.mp h
  obtain ⟨ext, hext, rfl⟩ := Option.map_eq_some_iff.mp h
  obtain ⟨hv, out, hout, hr⟩ := ofGeneric_eq_ok (eq_ok_of_toOption hext)
  obtain ⟨hroot, hkinds⟩ := Node.validate_eq_ok_iff.mp hv
  refine ⟨tree, out, eq_ok_of_toOption htree, fun n hn => ?_, hout, ?_⟩
  · exact hkinds n (Node.mem_flatten.mpr (.inr ⟨n, hn, Node.mem_flatten.mpr (.inl rfl)⟩))
  · cases reclassify_eq_ok_iff.mp hr with
    | raw hk _ => exact absurd (hroot.symm.trans hk) (by decide)
    | @branch _ _ _ ms _ hms =>
      have hall : List.Forall₂ (fun n m => extendedKind n = m.kind) out ms :=
        (reclassifiedList_iff.mp hms).imp fun n m hm => hm.kind_eq_extendedKind.symm
      have heq : List.Forall₂ Eq (out.map extendedKind) (ms.map Node.kind) := by
        rw [List.forall₂_map_left_iff, List.forall₂_map_right_iff]
        exact hall
      rwa [List.forall₂_eq_eq_eq] at heq

theorem IsStatement.mem_kinds {n : Node} (h : IsStatement n) :
    extendedKind n = "import" ∨ extendedKind n = "export" := by
  obtain ⟨head, rfl, hk⟩ := h
  rcases hk with hk | hk
  · exact .inl ((if_neg (by rw [Node.kind, Node.head, hk]; decide)).trans hk)
  · exact .inr ((if_neg (by rw [Node.kind, Node.head, hk]; decide)).trans hk)

theorem ne_of_generic {n : Node} (h : n.kind ∈ Vocabulary.generic) :
    extendedKind n ≠ "import" ∧ extendedKind n ≠ "export" := by
  have hgeneric : ∀ kind ∈ Vocabulary.generic, kind ≠ "import" ∧ kind ≠ "export" := by decide
  rw [extendedKind]
  split
  · decide
  · exact hgeneric _ h

theorem exists_position (h : parse text = .ok tree) {n : Node} (hn : n ∈ tree.children) :
    ∃ (p : Position) (u v : List Char), n.position = some p ∧ u ∈ lineRests text ∧
      p.Spans text u v := by
  rcases alike_parse (d := text) (e := text) rfl with
    ⟨_, tree', -, htree, -, hplaces⟩ | ⟨f, -, hf, -⟩
  · obtain rfl : tree' = tree := Except.ok.inj (htree.symm.trans h)
    obtain ⟨m, -, hplace⟩ := exists_of_mem_right hplaces hn
    obtain ⟨first, last, -, p, -, hp, -, hspan⟩ := hplace.lines
    exact ⟨p, _, _, hp, restFrom_mem text first, hspan⟩
  · cases hf.symm.trans h

theorem extractStatements_of_parse (h : parse text = .ok tree)
    (hnone : ∀ u ∈ lineRests text, statementHere? u = none) :
    extractStatements (some (.ofText text)) tree.children = .ok tree.children := by
  refine extractStatements_eq_self fun n hn => ?_
  obtain ⟨p, u, v, hp, hu, hspan⟩ := exists_position h hn
  exact opening_of_none hp hspan (hnone u hu)

theorem not_mem_of_none (h : topKinds text = some ks)
    (hnone : ∀ u ∈ lineRests text, statementHere? u = none) : "import" ∉ ks ∧ "export" ∉ ks := by
  obtain ⟨tree, out, htree, hkinds, hout, rfl⟩ := exists_of_topKinds h
  obtain rfl : tree.children = out :=
    Except.ok.inj ((extractStatements_of_parse htree hnone).symm.trans hout)
  constructor
  · intro hmem
    obtain ⟨n, hn, hk⟩ := List.mem_map.mp hmem
    exact (ne_of_generic (hkinds n hn)).1 hk
  · intro hmem
    obtain ⟨n, hn, hk⟩ := List.mem_map.mp hmem
    exact (ne_of_generic (hkinds n hn)).2 hk

theorem extractStatements_of_topKinds (h : topKinds text = some ks) (himport : "import" ∉ ks)
    (hexport : "export" ∉ ks) (htree : parse text = .ok tree) :
    extractStatements (some (.ofText text)) tree.children = .ok tree.children := by
  obtain ⟨tree', out, htree', -, hout, rfl⟩ := exists_of_topKinds h
  obtain rfl : tree' = tree := Except.ok.inj (htree'.symm.trans htree)
  obtain ⟨segs, hsegs, rfl⟩ := extractStatements_eq_ok_iff.mp hout
  have hno : ∀ m ∈ segs.flatMap Segment.written, ¬IsStatement m := by
    intro m hm hs
    have hmem := List.mem_map_of_mem (f := extendedKind) hm
    rcases hs.mem_kinds with hk | hk
    · exact himport (hk ▸ hmem)
    · exact hexport (hk ▸ hmem)
  rw [hsegs.written_eq hno] at hout
  exact hout

theorem paragraph_not_mem (h : topKinds text = some ks)
    (hsome : ∀ u ∈ lineRests text, (statementHere? u).isSome) : "paragraph" ∉ ks := by
  obtain ⟨tree, out, htree, -, hout, rfl⟩ := exists_of_topKinds h
  obtain ⟨segs, hsegs, rfl⟩ := extractStatements_eq_ok_iff.mp hout
  intro hmem
  obtain ⟨m, hm, hk⟩ := List.mem_map.mp hmem
  rcases hsegs.statement_or_content hm with hs | ⟨hmem, ho⟩
  · rcases hs.mem_kinds with hk' | hk' <;> exact absurd (hk'.symm.trans hk) (by decide)
  · obtain ⟨p, u, v, hp, hu, hspan⟩ := exists_position htree hmem
    obtain ⟨⟨kind, body⟩, hhere⟩ := Option.isSome_iff_exists.mp (hsome u hu)
    have hpar : m.kind = "paragraph" := by
      rw [extendedKind] at hk
      split at hk
      · exact absurd hk (by decide)
      · exact hk
    cases (opening_of_some hpar hp hspan hhere).symm.trans ho

/-- **Texts that are one to the grammar have the same kinds**, if their statements are extracted alike. -/
theorem topKinds_eq (h : normalize e = normalize d)
    (hextract : ∀ tree tree' : Node, parse d = .ok tree → parse e = .ok tree' →
      List.Forall₂ (SamePlace d e) tree.children tree'.children →
      Alike (List.Forall₂ (LikeNodes (some (.ofText d)) (some (.ofText e))))
        (extractStatements (some (.ofText d)) tree.children)
        (extractStatements (some (.ofText e)) tree'.children)) :
    topKinds e = topKinds d := by
  rcases alike_parse h with ⟨tree, tree', htree, htree', hshape, hplaces⟩ | ⟨f, f', hf, hf'⟩
  · rw [topKinds_of_parse htree, topKinds_of_parse htree']
    have hsame : Alike (fun ext ext' => childKinds ext = childKinds ext') (ofGeneric (some d) tree)
        (ofGeneric (some e) tree') :=
      alike_ofGeneric hshape (hextract tree tree' htree htree' hplaces)
    exact (hsame.map_toOption_eq fun _ _ hk => hk).symm
  · rw [topKinds_of_error hf, topKinds_of_error hf']

theorem topKinds_eq_of_kept (h : normalize e = normalize d)
    (hd : ∀ tree : Node, parse d = .ok tree →
      extractStatements (some (.ofText d)) tree.children = .ok tree.children)
    (he : ∀ tree : Node, parse e = .ok tree →
      extractStatements (some (.ofText e)) tree.children = .ok tree.children) :
    topKinds e = topKinds d := by
  refine topKinds_eq h fun tree tree' htree htree' hplaces => ?_
  rw [hd tree htree, he tree' htree']
  exact .ok (hplaces.imp fun n n' hn => alike_reclassify hn.shape)

end Kinds

/-! ### Line endings -/

/-- **Kinds and line endings**, for a document whose lines end in line feeds.

* With a carriage return before each line feed the kinds stay, or the document still has none, unless a
  statement has a backslash before a line feed.
* With a carriage return in place of each line feed they stay if no line opens a statement.
* If the first line opens none, they stay for exactly the documents without statements: what statements
  the others have is lost.
* If the first line opens one, no paragraph is left. -/
theorem line_endings_keep_kinds (d : List Char) (hd : '\r' ∉ d) :
    (Unbroken d → topKinds (pairBreaks d) = topKinds d) ∧
    ((∀ u ∈ lineRests d, statementHere? u = none) → topKinds (returnBreaks d) = topKinds d) ∧
    (statementHere? d = none → ∀ ks, topKinds d = some ks →
      (topKinds (returnBreaks d) = some ks ↔ "import" ∉ ks ∧ "export" ∉ ks)) ∧
    ((statementHere? d).isSome → ∀ ks, topKinds (returnBreaks d) = some ks → "paragraph" ∉ ks) := by
  have hnormal : normalize (returnBreaks d) = normalize d := normalize_returnBreaks hd
  have hhere : ∀ u ∈ lineRests (returnBreaks d),
      statementHere? u = (statementHere? d).map (Prod.map id returnBreaks) := by
    intro u hu
    rw [lineRests_returnBreaks, List.mem_singleton] at hu
    rw [hu, statementHere?_returnBreaks]
  have hnone (h : statementHere? d = none) :
      ∀ u ∈ lineRests (returnBreaks d), statementHere? u = none := by
    intro u hu
    rw [hhere u hu, h, Option.map_none]
  refine ⟨?_, ?_, ?_, ?_⟩
  · intro hs
    have hsame := sameLines_pairBreaks hd
    exact topKinds_eq (normalize_of_sameLines hsame) fun _ _ _ _ hplaces =>
      alike_extractStatements hsame hs hplaces
  · intro h
    exact topKinds_eq_of_kept hnormal (fun _ htree => extractStatements_of_parse htree h)
      fun _ htree => extractStatements_of_parse htree (hnone (h d List.mem_cons_self))
  · intro h ks hks
    constructor
    · intro hks'
      exact not_mem_of_none hks' (hnone h)
    · rintro ⟨himport, hexport⟩
      rw [← hks]
      exact topKinds_eq_of_kept hnormal
        (fun _ htree => extractStatements_of_topKinds hks himport hexport htree)
        fun _ htree => extractStatements_of_parse htree (hnone h)
  · intro h ks hks
    refine paragraph_not_mem hks fun u hu => ?_
    rw [hhere u hu, Option.isSome_map]
    exact h

/-- A paragraph with a hard break in it, then an import. -/
def breakThenImport : List Char :=
  "a\\\nb\n\nimport c from 'd'\n".toList

/-- An import, then a paragraph. -/
def importThenText : List Char :=
  "import a\n\nb\n".toList

theorem line_endings_keep_kinds_imports :
    topKinds breakThenImport = some ["paragraph", "import"] ∧
    topKinds (pairBreaks breakThenImport) = topKinds breakThenImport ∧
    topKinds (returnBreaks breakThenImport) ≠ topKinds breakThenImport ∧
    topKinds (returnBreaks ['a', '\n', 'b']) = topKinds ['a', '\n', 'b'] ∧
    topKinds importThenText = some ["import", "paragraph"] ∧
    topKinds (returnBreaks importThenText) = some ["import"] ∧ "paragraph" ∉ ["import"] := by
  have hkinds : topKinds breakThenImport = some ["paragraph", "import"] := by decide +kernel
  have hswallowed : topKinds (returnBreaks importThenText) = some ["import"] := by decide +kernel
  obtain ⟨hpair, -, hreturn, -⟩ := line_endings_keep_kinds breakThenImport (by decide +kernel)
  obtain ⟨-, hplain, -⟩ := line_endings_keep_kinds ['a', '\n', 'b'] (by decide)
  obtain ⟨-, -, -, hopens⟩ := line_endings_keep_kinds importThenText (by decide +kernel)
  refine ⟨hkinds, hpair (unbroken_of_rests (by decide +kernel)), fun heq => ?_,
    hplain (by decide +kernel), by decide +kernel, hswallowed,
    hopens (by decide +kernel) _ hswallowed⟩
  exact ((hreturn (by decide +kernel) _ hkinds).mp (heq.trans hkinds)).1 (by decide)

/-- **Statements are lost where lines end in carriage returns**, and one with a line break after a
backslash fails where they end in both. -/
theorem return_breaks_hide_statements :
    topKinds "# t\n\nimport a from 'b'\n".toList = some ["heading", "import"] ∧
    topKinds "# t\r\n\r\nimport a from 'b'\r\n".toList = some ["heading", "import"] ∧
    topKinds "# t\r\rimport a from 'b'\r".toList = some ["heading", "paragraph"] ∧
    topKinds "import 'a\\\nb'\n".toList = some ["import"] ∧
    topKinds "import 'a\\\r\nb'\r\n".toList = none := by
  decide +kernel

end Extended

end Mdx
