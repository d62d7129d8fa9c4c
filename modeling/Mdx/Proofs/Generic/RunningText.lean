import Mathlib.Data.List.Chain
import Mathlib.Data.List.Forall2
import Mdx.Generic.Inline
import Mdx.Proofs.Fault.Result
import Mdx.Proofs.Node.Order

/-!
# Running text keeps what it says

What a piece of running text says is told by the pieces alone (`spoken`): a text, a piece of code and raw
markup say their content, a line break a line feed, a span what is in it, and an image nothing.

The nodes are made from left to right, and a text is added to the last node if that is one.  `Read pieces
done` says what holds of the nodes `done`, last first, that the pieces have come to: no two texts are next
to each other, at any depth, the nodes say what the pieces say, and so do the descriptions of the images.
One more piece keeps this (`Read.addInline`), so it holds of all running text (`Read.addInlines`).
-/

namespace Mdx.Generic

open Mdx.Markdown
open Mdx.Node (Everywhere everywhere_cons everywhere_nil flattenStack literalText literalTexts select
  select_append select_cons_of_neg select_cons_of_pos select_nil)

/-! ### What pieces say -/

/-- A span of running text: what is in it is running text again. -/
def isSpan (kind : String) : Bool :=
  ["em", "strong", "s", "link"].contains kind

mutual

/-- What a piece of running text says. -/
def spoken : Syntax → String
  | .node h cs =>
      if isSpan h.kind then spokenAll cs
      else if ["text", "code_inline", "html_inline"].contains h.kind then h.content
      else if ["softbreak", "hardbreak"].contains h.kind then "\n"
      else ""

/-- What pieces of running text say, one after another. -/
def spokenAll : List Syntax → String
  | [] => ""
  | s :: rest => spoken s ++ spokenAll rest

end

mutual

/-- The images of a piece of running text, from left to right. -/
def imagePieces : Syntax → List Syntax
  | .node h cs =>
      if isSpan h.kind then imagePiecesAll cs
      else if h.kind = "image" then [.node h cs]
      else []

/-- The images of pieces of running text, from left to right. -/
def imagePiecesAll : List Syntax → List Syntax
  | [] => []
  | s :: rest => imagePieces s ++ imagePiecesAll rest

end

theorem spokenAll_append (xs ys : List Syntax) :
    spokenAll (xs ++ ys) = spokenAll xs ++ spokenAll ys := by
  induction xs with
  | nil => rw [spokenAll, List.nil_append, String.empty_append]
  | cons s rest ih => rw [List.cons_append, spokenAll, spokenAll, ih, String.append_assoc]

theorem spokenAll_singleton (s : Syntax) : spokenAll [s] = spoken s := by
  rw [spokenAll, spokenAll, String.append_empty]

theorem imagePiecesAll_append (xs ys : List Syntax) :
    imagePiecesAll (xs ++ ys) = imagePiecesAll xs ++ imagePiecesAll ys := by
  induction xs with
  | nil => rw [imagePiecesAll, List.nil_append, List.nil_append]
  | cons s rest ih => rw [List.cons_append, imagePiecesAll, imagePiecesAll, ih, List.append_assoc]

theorem imagePiecesAll_singleton (s : Syntax) : imagePiecesAll [s] = imagePieces s := by
  rw [imagePiecesAll, imagePiecesAll, List.append_nil]

/-! ### Nodes -/

/-- No two texts are next to each other. -/
def Merged (ns : List Node) : Prop :=
  ns.IsChain fun a b => ¬(a.kind = "text" ∧ b.kind = "text")

theorem merged_reverse {ns : List Node} : Merged ns.reverse ↔ Merged ns := by
  simp only [Merged, List.isChain_reverse, and_comm]

/-- A node may change, if it is a text only where it was one. -/
theorem Merged.replace {n m : Node} {ns : List Node} (h : Merged (n :: ns)) (hk : m.kind = n.kind) :
    Merged (m :: ns) := by
  obtain ⟨hhead, htail⟩ := List.isChain_cons.mp h
  refine List.IsChain.cons htail fun y hy => ?_
  rw [hk]
  exact hhead y hy

/-- Whether a node is an image. -/
def isImage (n : Node) : Bool :=
  n.kind = "image"

theorem literalTexts_append (xs ys : List Node) :
    literalTexts (xs ++ ys) = literalTexts xs ++ literalTexts ys := by
  induction xs with
  | nil => rw [literalTexts, List.nil_append, String.empty_append]
  | cons n rest ih => rw [List.cons_append, literalTexts, literalTexts, ih, String.append_assoc]

theorem literalTexts_singleton (n : Node) : literalTexts [n] = literalText n := by
  rw [literalTexts, literalTexts, String.append_empty]

/-- The description of an image is what the pieces in it say. -/
def Describes (s : Syntax) (n : Node) : Prop :=
  n.prop? "alt" = some (.str (spokenAll s.children))

/-- The pieces have come to these nodes, last first. -/
structure Read (pieces : List Syntax) (done : List Node) : Prop where
  leaves : ∀ n ∈ done, n.kind = "text" → n.isLeaf = true
  merged : Merged done
  within : Everywhere (fun x => Merged x.children) done
  text_eq : literalTexts done.reverse = spokenAll pieces
  images : List.Forall₂ Describes (imagePiecesAll pieces) (select isImage done.reverse)

namespace Read

variable {pieces cs : List Syntax} {done children : List Node} {s : Syntax} {h : SyntaxHead}

theorem nil : Read [] [] where
  leaves := List.forall_mem_nil _
  merged := .nil
  within := everywhere_nil
  text_eq := rfl
  images := by
    rw [List.reverse_nil, select_nil]
    exact .nil

/-- A piece that becomes a node of its own; a text is a leaf and does not follow a text. -/
theorem cons {n : Node} (hd : Read pieces done) (hl : n.kind = "text" → n.isLeaf = true)
    (hf : n.kind = "text" → ∀ last ∈ done.head?, last.kind ≠ "text") (hm : Merged n.children)
    (hw : Everywhere (fun x => Merged x.children) n.children) (hs : literalText n = spoken s)
    (hi : List.Forall₂ Describes (imagePieces s) (select isImage [n])) : Read (pieces ++ [s]) (n :: done) where
  leaves := List.forall_mem_cons.mpr ⟨hl, hd.leaves⟩
  merged := List.IsChain.cons hd.merged fun last hlast both => hf both.1 last hlast both.2
  within := everywhere_cons.mpr ⟨hm, hw, hd.within⟩
  text_eq := by
    rw [List.reverse_cons, literalTexts_append, literalTexts_singleton, hd.text_eq, hs, spokenAll_append,
      spokenAll_singleton]
  images := by
    rw [List.reverse_cons, select_append, imagePiecesAll_append, imagePiecesAll_singleton]
    exact List.rel_append hd.images hi

theorem cons_leaf {head : NodeHead} (hd : Read pieces done) (hk : head.kind ≠ "image")
    (hf : head.kind = "text" → ∀ last ∈ done.head?, last.kind ≠ "text")
    (hs : literalText (.leaf head) = spoken s) (hi : imagePieces s = []) :
    Read (pieces ++ [s]) (.leaf head :: done) := by
  refine hd.cons (fun _ => rfl) hf .nil everywhere_nil hs ?_
  have himage : isImage (.leaf head) = false := decide_eq_false hk
  rw [hi, select_cons_of_neg himage, Node.children, select_nil]
  exact .nil

theorem cons_span {head : NodeHead} (hd : Read pieces done) (hc : Read cs children)
    (hk : head.kind ∉ ["text", "image", "break"]) (hspan : isSpan h.kind = true) :
    Read (pieces ++ [.node h cs]) (.branch head children.reverse :: done) := by
  simp only [List.mem_cons, List.not_mem_nil, or_false, not_or] at hk
  obtain ⟨htext, himage, hbreak⟩ := hk
  refine hd.cons (fun hk => absurd hk htext) (fun hk => absurd hk htext) (merged_reverse.mpr hc.merged)
    hc.within.reverse ?_ ?_
  · rw [literalText, if_neg hbreak, hc.text_eq, spoken, if_pos hspan]
  · have himage : isImage (.branch head children.reverse) = false := decide_eq_false himage
    rw [imagePieces, if_pos hspan, select_cons_of_neg himage, select_nil, List.append_nil]
    exact hc.images

theorem cons_image (hd : Read pieces done) (hc : Read cs children) (hk : h.kind = "image") :
    Read (pieces ++ [.node h cs]) (imageNode h children.reverse :: done) := by
  have hspan : isSpan h.kind = false := by rw [hk]; rfl
  have htext : (imageNode h children.reverse).kind ≠ "text" := show "image" ≠ "text" by decide
  refine hd.cons (fun hk => absurd hk htext) (fun hk => absurd hk htext) .nil everywhere_nil ?_ ?_
  · rw [spoken, hspan, hk]
    rfl
  · have himage : isImage (imageNode h children.reverse) = true := rfl
    have hchildren : (imageNode h children.reverse).children = [] := rfl
    rw [imagePieces, hspan, if_neg Bool.false_ne_true, if_pos hk, select_cons_of_pos himage, hchildren,
      select_nil]
    refine .cons ?_ .nil
    show some (Json.str (literalTexts children.reverse)) = some (Json.str (spokenAll cs))
    rw [hc.text_eq]

theorem extend_text {head : NodeHead} {before : List Node} {content : String}
    (hd : Read pieces (.leaf head :: before)) (hk : head.kind = "text") (hs : spoken s = content)
    (hi : imagePieces s = []) :
    Read (pieces ++ [s])
      (.leaf { head with value := some (head.value.getD "" ++ content) } :: before) where
  leaves := List.forall_mem_cons.mpr ⟨fun _ => rfl, (List.forall_mem_cons.mp hd.leaves).2⟩
  merged := hd.merged.replace rfl
  within := everywhere_cons.mpr ⟨.nil, everywhere_nil, (everywhere_cons.mp hd.within).2.2⟩
  text_eq := by
    have hbreak : head.kind ≠ "break" := by rw [hk]; decide
    have hbefore := hd.text_eq
    rw [List.reverse_cons, literalTexts_append, literalTexts_singleton, literalText, if_neg hbreak] at hbefore
    rw [List.reverse_cons, literalTexts_append, literalTexts_singleton, literalText, if_neg hbreak,
      Option.getD_some, ← String.append_assoc, hbefore, spokenAll_append, spokenAll_singleton, hs]
  images := by
    have himage : ∀ value : Option String, select isImage [.leaf { head with value := value }] = [] := by
      intro value
      have hne : isImage (.leaf { head with value := value }) = false := by
        show decide (head.kind = "image") = false
        rw [hk]
        decide
      rw [select_cons_of_neg hne, Node.children, select_nil, List.append_nil]
    have hbefore := hd.images
    rw [List.reverse_cons, select_append, himage head.value] at hbefore
    rw [List.reverse_cons, select_append, himage, imagePiecesAll_append, imagePiecesAll_singleton, hi,
      List.append_nil (imagePiecesAll pieces)]
    exact hbefore

theorem addText {content : String} (hd : Read pieces done) (hs : spoken s = content)
    (hi : imagePieces s = []) : Read (pieces ++ [s]) (addText content done) := by
  have htext : literalText (Node.ofText content none) = spoken s := hs.symm
  cases done with
  | nil => exact hd.cons_leaf (show "text" ≠ "image" by decide) (fun _ last hlast => nomatch hlast) htext hi
  | cons last before =>
    rw [Generic.addText]
    split
    next hk =>
      have hleaf := hd.leaves last List.mem_cons_self hk
      cases last with
      | leaf head => exact hd.extend_text hk hs hi
      | branch head cs => cases hleaf
    next hk =>
      refine hd.cons_leaf (show "text" ≠ "image" by decide) (fun _ last' hlast => ?_) htext hi
      obtain rfl := Option.mem_some.mp hlast
      exact hk

theorem cons_shown {head : NodeHead} (hd : Read pieces done) (hk : head.kind ∉ ["text", "image"])
    (hspan : isSpan h.kind = false) (himage : h.kind ≠ "image")
    (hs : literalText (.leaf head) = spoken (.node h cs)) :
    Read (pieces ++ [.node h cs]) (.leaf head :: done) := by
  simp only [List.mem_cons, List.not_mem_nil, or_false, not_or] at hk
  refine hd.cons_leaf hk.2 (fun htext => absurd htext hk.1) hs ?_
  rw [imagePieces, hspan, if_neg Bool.false_ne_true, if_neg himage]

theorem inlineNode {n : Node} (hd : Read pieces done)
    (hc : hasContents h.kind = true → Read cs children)
    (hn : inlineNode h children.reverse = .ok n) : Read (pieces ++ [.node h cs]) (n :: done) := by
  unfold Generic.inlineNode at hn
  split at hn
  next hk =>
    cases hn
    refine hd.cons_shown (show "break" ∉ _ by decide) (by rw [hk]; rfl) (by rw [hk]; decide) ?_
    rw [spoken, hk]
    rfl
  next hk =>
    cases hn
    refine hd.cons_shown (show "inlineCode" ∉ _ by decide) (by rw [hk]; rfl) (by rw [hk]; decide) ?_
    rw [spoken, hk]
    rfl
  next hk =>
    cases hn
    exact hd.cons_span (hc (by rw [hk]; rfl)) (show "emphasis" ∉ _ by decide) (by rw [hk]; rfl)
  next hk =>
    cases hn
    exact hd.cons_span (hc (by rw [hk]; rfl)) (show "strong" ∉ _ by decide) (by rw [hk]; rfl)
  next hk =>
    cases hn
    exact hd.cons_span (hc (by rw [hk]; rfl)) (show "delete" ∉ _ by decide) (by rw [hk]; rfl)
  next hk =>
    cases hn
    exact hd.cons_span (hc (by rw [hk]; rfl)) (show "link" ∉ _ by decide) (by rw [hk]; rfl)
  next hk =>
    cases hn
    exact hd.cons_image (hc (by rw [hk]; rfl)) hk
  next hk =>
    cases hn
    refine hd.cons_shown (show "html" ∉ _ by decide) (by rw [hk]; rfl) (by rw [hk]; decide) ?_
    rw [spoken, hk]
    rfl
  next => cases hn

end Read

/-! ### The run -/

mutual

theorem Read.addInline : ∀ (s : Syntax) {pieces : List Syntax} {done out : List Node},
    Read pieces done → addInline done s = .ok out → Read (pieces ++ [s]) out
  | .node h cs, pieces, done, out, hd, hout => by
    rw [Generic.addInline] at hout
    split at hout
    next hk =>
      cases hout
      exact hd.addText (by rw [spoken, hk]; rfl) (by rw [imagePieces, hk]; rfl)
    · split at hout
      next hk =>
        cases hout
        exact hd.addText (by rw [spoken, hk]; rfl) (by rw [imagePieces, hk]; rfl)
      · split at hout
        · split at hout
          · cases hout
          next children hchildren =>
            split at hout
            · cases hout
            next n hn =>
              cases hout
              exact hd.inlineNode (fun _ => Read.addInlines cs .nil hchildren) hn
        next hk =>
          split at hout
          · cases hout
          next n hn =>
            cases hout
            have hnone : Generic.inlineNode h [].reverse = .ok n := hn
            exact hd.inlineNode (fun h => absurd h hk) hnone

theorem Read.addInlines : ∀ (rest : List Syntax) {pieces : List Syntax} {done out : List Node},
    Read pieces done → addInlines done rest = .ok out → Read (pieces ++ rest) out
  | [], pieces, done, out, hd, hout => by
    rw [Generic.addInlines] at hout
    cases hout
    rw [List.append_nil]
    exact hd
  | s :: rest, pieces, done, out, hd, hout => by
    rw [Generic.addInlines] at hout
    split at hout
    · cases hout
    next done' hdone =>
      rw [List.append_cons]
      exact Read.addInlines rest (Read.addInline s hd hdone) hout

end

/-- **Running text is merged without loss.**  If pieces of running text have nodes, no two texts are next to
each other among these or the children of any of them; the nodes say what the pieces say; and the images,
from left to right, are described by what is in them. -/
theorem running_text_is_merged {pieces : List Syntax} {ns : List Node} (h : inlines pieces = .ok ns) :
    (Merged ns ∧ ∀ x ∈ flattenStack ns, Merged x.children) ∧
    literalTexts ns = spokenAll pieces ∧
    List.Forall₂ (fun s n => n.prop? "alt" = some (.str (spokenAll s.children)))
      (imagePiecesAll pieces) ((flattenStack ns).filter (·.kind = "image")) := by
  obtain ⟨done, hdone, rfl⟩ := exists_ok_of_map h
  have hread : Read pieces done := Read.addInlines pieces .nil hdone
  exact ⟨⟨merged_reverse.mpr hread.merged, hread.within.reverse⟩, hread.text_eq, hread.images⟩

/-- A piece of running text with nothing in it. -/
def plainPiece (kind content : String) : Syntax :=
  .node { kind := kind, content := content } []

/-- Two lines of text, an image with code in its description inside a link, and raw markup after a break. -/
def linkedImage : List Syntax :=
  [plainPiece "text" "a", plainPiece "softbreak" "", plainPiece "text" "b",
   .node { kind := "link" }
    [plainPiece "text" "c",
     .node { kind := "image" }
      [plainPiece "text" "d", .node { kind := "em" } [plainPiece "code_inline" "e"]]],
   plainPiece "hardbreak" "", plainPiece "html_inline" "<i>", plainPiece "text" "f"]

theorem running_text_is_merged_linked_image :
    ∃ ns : List Node, inlines linkedImage = .ok ns ∧
      ns.map (fun n => (n.kind, n.value)) =
        [("text", some "a\nb"), ("link", none), ("break", none), ("html", some "<i>"), ("text", some "f")] ∧
      (Merged ns ∧ ∀ x ∈ flattenStack ns, Merged x.children) ∧
      literalTexts ns = "a\nbc\n<i>f" ∧
      ((flattenStack ns).filter (·.kind = "image")).map (·.prop? "alt") = [some (.str "de")] := by
  have hvalues : (inlines linkedImage).toOption.map (fun ns => ns.map fun n => (n.kind, n.value)) =
      some [("text", some "a\nb"), ("link", none), ("break", none), ("html", some "<i>"),
        ("text", some "f")] := by
    decide +kernel
  obtain ⟨ns, hns, hvalues⟩ := Option.map_eq_some_iff.mp hvalues
  have h := eq_ok_of_toOption hns
  obtain ⟨hmerged, htext, himages⟩ := running_text_is_merged h
  refine ⟨ns, h, hvalues, hmerged, htext.trans (by decide +kernel), ?_⟩
  have hpieces : (imagePiecesAll linkedImage).map (fun s => spokenAll s.children) = ["de"] := by
    decide +kernel
  obtain ⟨image, hpiece, hcontent⟩ := List.map_eq_singleton_iff.mp hpieces
  rw [hpiece] at himages
  obtain ⟨n, ns', halt, hnil, hfilter⟩ := List.forall₂_cons_left_iff.mp himages
  cases hnil
  rw [hfilter, List.map_singleton, halt, hcontent]

end Mdx.Generic
