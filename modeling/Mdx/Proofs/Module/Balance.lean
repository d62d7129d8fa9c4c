import Mdx.Proofs.Extended.Regular
import Mdx.Proofs.Module.Mirror

/-!
# Balanced markup in generated code

What is rendered of a document is put together with line breaks, and embedded elements stand in it as
they were written.  Each of them was accepted alone, which does not say how it is read next to others: a
brace that nothing closes is text, until something later on closes it.

A piece of markup is `Settled` if it is read the same whatever follows, which can be checked
(`settled_of_isSettled`).  If all raw markup of a document is settled, then every rendering is balanced
(`balanced_of_mem`), and so is the body of the module, which is accepted as markup.
-/

namespace Mdx.Module

open Mdx.Element
open Mdx.Extended (IsStatement elementOf elementOf_eq_ok_iff exists_reclassified)
open Mdx.Node (mem_flatten)
open Mdx.Script (groupRest? length_lt_of_groupRest?)

/-! ### Balanced code -/

/-- Code that is read the same whatever follows, with tags that nest. -/
def Balanced (r : String) : Prop :=
  ∃ (os : List Outline) (ms : List Mark), Drawn os ms r

theorem Balanced.append {r s : String} (hr : Balanced r) (hs : Balanced s) : Balanced (r ++ s) := by
  obtain ⟨os, ms, hr⟩ := hr
  obtain ⟨os', ms', hs⟩ := hs
  exact ⟨_, _, hr.append hs⟩

theorem Balanced.around {name : String} {parent : Option String} {inner : String}
    (hname : TagSound name) (hparent : ∀ p ∈ parent, TagSound p) (properties : Json)
    (h : Balanced inner) : Balanced (tagAround name parent properties inner) := by
  obtain ⟨os, ms, h⟩ := h
  exact ⟨_, _, h.around hname hparent properties⟩

theorem balanced_text (v : String) : Balanced (templateGroup v) :=
  ⟨_, _, drawn_text v⟩

/-- **A rendering is balanced if the embedded elements in it are.** -/
theorem Renderable.balanced {n : Node}
    (h : Renderable (fun n => n.kind = "jsx" → Balanced n.text) n) {parent : Option String} {r : String}
    (hparent : ∀ p ∈ parent, TagSound p) (hr : render parent n = .ok r) : Balanced r := by
  refine h.render_induction (motive := fun _ r => Balanced r) ?text ?inlineCode ?jsx ?void ?element
    parent r hparent hr
  case text => exact fun n _ => balanced_text n.text
  case inlineCode =>
    exact fun n parent _ hp => (balanced_text n.text).around ⟨by decide, by decide⟩ hp _
  case jsx => exact fun n hk h => h hk
  case void => exact fun n tag parent _ _ hs hp _ _ => ⟨_, _, drawn_void hs hp _⟩
  case element =>
    intro n tag parent block rendered _ _ hs hp _ hall
    refine Balanced.around hs hp _ ?_
    exact layout_induction (motive := fun _ r => Balanced r) ⟨_, _, drawn_nil⟩ ⟨_, _, drawn_lineBreak⟩
      (fun _ _ _ _ => Balanced.append) hall block

/-! ### Raw markup -/

/-- Markup that is read the same whatever follows. -/
def Settled (v : String) : Prop :=
  ∃ ms : List Mark, Spells v.toList ms

/-- A check for settled markup: each angle bracket outside of a tag starts a tag, and each brace there a
group that is closed. -/
def isSettled (s : List Char) : Bool :=
  match s with
  | [] => true
  | c :: rest =>
      if c == '<' then
        match h : lexemeAfter rest with
        | .ok (some l) =>
            have := length_le_of_lexemeAfter h
            isSettled l.rest
        | _ => false
      else if c == '\x7b' then
        match h : groupRest? (c :: rest) with
        | some after =>
            have := length_lt_of_groupRest? h
            isSettled after
        | none => false
      else isSettled rest
termination_by s.length
decreasing_by all_goals simp_all; try omega

theorem isSettled_bracket (rest : List Char) :
    isSettled ('<' :: rest) =
      match lexemeAfter rest with
      | .ok (some l) => isSettled l.rest
      | _ => false := by
  rw [isSettled, if_pos (by decide)]
  split <;> simp_all

theorem isSettled_brace (rest : List Char) :
    isSettled ('\x7b' :: rest) =
      match groupRest? ('\x7b' :: rest) with
      | some after => isSettled after
      | none => false := by
  rw [isSettled, if_neg (by decide), if_pos (by decide)]
  split <;> simp_all

theorem exists_spells_of_isSettled (s : List Char) :
    isSettled s = true → ∃ ms : List Mark, Spells s ms := by
  induction s using tokens_induction with
  | nil => exact fun _ => ⟨[], .nil⟩
  | fault rest f h =>
    intro hs
    rw [isSettled_bracket, h] at hs
    cases hs
  | lexeme rest l h ih =>
    intro hs
    rw [isSettled_bracket, h] at hs
    obtain ⟨ms, hms⟩ := ih hs
    exact ⟨_, hms.lexeme h⟩
  | pass s after h ih =>
    intro hs
    cases h with
    | bracket h =>
      rw [isSettled_bracket, h] at hs
      cases hs
    | group h =>
      rw [isSettled_brace, h] at hs
      obtain ⟨ms, hms⟩ := ih hs
      exact hms.exists_group h
    | brace h =>
      rw [isSettled_brace, h] at hs
      cases hs
    | @char c rest h₁ h₂ =>
      rw [isSettled, if_neg (by simpa using h₁), if_neg (by simpa using h₂)] at hs
      obtain ⟨ms, hms⟩ := ih hs
      exact ⟨.text [c] :: ms, .text (x := [c]) (fun u => .char h₁ h₂) hms⟩

theorem settled_of_isSettled {v : String} (h : isSettled v.toList = true) : Settled v :=
  exists_spells_of_isSettled v.toList h

/-- **Settled markup that is accepted is balanced.** -/
theorem Settled.balanced {v : String} (hs : Settled v) {place : Placement} {ns : List Node}
    (hp : parseFragment v.toList place = .ok ns) : Balanced v := by
  obtain ⟨ms, hms⟩ := hs
  obtain ⟨-, d, -⟩ := parseFragment_eq_ok_iff.mp hp
  obtain ⟨os, hnested⟩ := d.nested
  rw [hms.tokens_eq.2] at hnested
  exact ⟨os, ms, hms, hnested⟩

theorem balanced_elementOf {doc : Option Extended.Document} {near : Option Position} {n w : Node}
    (hs : Settled n.text) (hw : elementOf doc near n.head = .ok w) : Balanced w.text := by
  obtain ⟨cs, hcs, rfl⟩ := elementOf_eq_ok_iff.mp hw
  rw [parseChildren_eq] at hcs
  obtain ⟨ns, hns, -⟩ := exists_ok_of_map hcs
  exact hs.balanced hns

/-- **What stands at the top level of the markup of a document and is rendered has a balanced
rendering**, if the raw markup of the document is settled. -/
theorem balanced_of_mem {source : Option (List Char)} {tree ext markup m : Node}
    (he : Extended.ofGeneric source tree = .ok ext) (hm : Markup.ofExtended ext = .ok markup)
    (hraw : ∀ n ∈ tree.flatten, n.kind = "html" → Settled n.text) (hmem : m ∈ markup.children)
    (hcontent : isContent m = true) {r : String} (hr : render none m = .ok r) : Balanced r := by
  obtain ⟨-, ms, hms, rfl, -⟩ := Markup.ofExtended_eq_ok_iff.mp hm
  obtain ⟨c, hc, hcm⟩ := Extended.exists_of_mem_right (Markup.ofNodes_eq_ok_iff.mp hms) hmem
  rcases exists_reclassified he hc with hs | ⟨n, hn, hnc, hkinds⟩
  · obtain rfl := Except.ok.inj (hs.ofNode_eq.symm.trans hcm)
    rw [hs.isContent_eq] at hcontent
    cases hcontent
  · have houter : Markup.Outer (fun n => n.kind = "jsx" → Balanced n.text) c :=
      hnc.outer hkinds fun y hy hk near w hw _ =>
        balanced_elementOf (hraw y (mem_flatten.mpr (.inr ⟨n, hn, hy⟩)) hk) hw
    have hleaf : ∀ head : NodeHead, head.kind = "text" ∨ head.kind = "inlineCode" →
        (Node.leaf head).kind = "jsx" → Balanced (Node.leaf head).text := by
      intro head hk hjsx
      have hjsx' : head.kind = "jsx" := hjsx
      rcases hk with hk | hk <;> rw [hk] at hjsx' <;> exact absurd hjsx' (by decide)
    exact (houter.renderable hleaf m hcm).balanced (fun _ hp => absurd hp (Option.not_mem_none _)) hr

theorem kind_of_ofExtended {ext markup : Node} (h : Markup.ofExtended ext = .ok markup) :
    markup.kind = "root" := by
  obtain ⟨-, ms, -, rfl, -⟩ := Markup.ofExtended_eq_ok_iff.mp h
  rfl

/-- **The body of a generated module is accepted as markup if the raw markup of the document is
settled.**  The body is what the module's component holds: the renderings of all but the statements,
with line breaks between them. -/
theorem rendered_body_is_accepted {source : Option (List Char)} {tree ext markup : Node}
    {runtime : Option String} {code : String} (he : Extended.ofGeneric source tree = .ok ext)
    (hm : Markup.ofExtended ext = .ok markup) (hg : generate runtime markup = .ok code)
    (hraw : ∀ n ∈ tree.flatten, n.kind = "html" → Settled n.text) (place : Placement) :
    ∃ (parts : Parts) (rendered : List String), partsFrom none markup.children = .ok parts ∧
      renderList none parts.body = .ok rendered ∧ code = moduleText runtime parts rendered ∧
      ∃ ns : List Node, parseFragment ("\n".intercalate rendered).toList place = .ok ns := by
  obtain ⟨parts, rendered, hparts, hrendered, hcode⟩ :=
    exists_of_generate (kind_of_ofExtended hm) hg
  refine ⟨parts, rendered, hparts, hrendered, hcode, ?_⟩
  have hall := List.forall₂_and_left parts.body rendered |>.mpr
    ⟨fun m hmem => hmem, renderList_eq_ok_iff.mp hrendered⟩
  have hbalanced : List.Forall₂ (fun _ r => Balanced r) parts.body rendered := by
    refine hall.imp fun m r h => ?_
    rw [body_of_partsFrom hparts, List.mem_filter] at h
    exact balanced_of_mem he hm hraw h.1.1 h.1.2 h.2
  obtain ⟨os, marks, hdrawn⟩ := intercalate_induction (motive := fun _ r => Balanced r)
    ⟨_, _, drawn_nil⟩ ⟨_, _, drawn_lineBreak⟩ (fun _ _ _ _ => Balanced.append) hbalanced
  obtain ⟨ns, hns, -⟩ := hdrawn.spells.exists_parseFragment hdrawn.nested place
  exact ⟨ns, hns⟩

/-- The body of the module for a parsed document, if all stages succeed. -/
def body? (source : Option (List Char)) (tree : Node) : Option String :=
  (Extended.ofGeneric source tree).toOption.bind fun ext =>
    (Markup.ofExtended ext).toOption.bind fun markup =>
      (partsFrom none markup.children).toOption.bind fun parts =>
        (renderList none parts.body).toOption.map fun rendered => "\n".intercalate rendered

theorem exists_of_body? {source : Option (List Char)} {tree : Node} {body : String}
    (h : body? source tree = some body) (runtime : Option String) :
    ∃ (ext markup : Node) (parts : Parts) (rendered : List String),
      Extended.ofGeneric source tree = .ok ext ∧ Markup.ofExtended ext = .ok markup ∧
      generate runtime markup = .ok (moduleText runtime parts rendered) ∧
      partsFrom none markup.children = .ok parts ∧ renderList none parts.body = .ok rendered ∧
      "\n".intercalate rendered = body := by
  obtain ⟨ext, he, h⟩ := Option.bind_eq_some_iff.mp h
  obtain ⟨markup, hm, h⟩ := Option.bind_eq_some_iff.mp h
  obtain ⟨parts, hp, h⟩ := Option.bind_eq_some_iff.mp h
  obtain ⟨rendered, hr, hbody⟩ := Option.map_eq_some_iff.mp h
  have hm := eq_ok_of_toOption hm
  have hp := eq_ok_of_toOption hp
  have hr := eq_ok_of_toOption hr
  refine ⟨ext, markup, parts, rendered, eq_ok_of_toOption he, hm, ?_, hp, hr, hbody⟩
  rw [generate_eq runtime (kind_of_ofExtended hm), hp]
  show (renderList none parts.body).map (moduleText runtime parts) = _
  rw [hr]
  rfl

/-- Raw markup with a group in a quotation, and a text that holds a brace. -/
def settledMarkup : Node :=
  .ofChildren
    [.branch { kind := "blockquote" }
       [.leaf { kind := "html", value := "<b title=\x7ba\x7d>\x7b'<'\x7d</b>" }],
     .branch { kind := "paragraph" } [.leaf { kind := "text", value := "\x7b" }]]

/-- The raw markup of this document is settled, and its body is accepted. -/
theorem rendered_body_is_accepted_quotation :
    ∃ (ext markup : Node) (parts : Parts) (rendered : List String),
      Extended.ofGeneric none settledMarkup = .ok ext ∧ Markup.ofExtended ext = .ok markup ∧
      generate none markup = .ok (moduleText none parts rendered) ∧
      (∀ n ∈ settledMarkup.flatten, n.kind = "html" → Settled n.text) ∧
      partsFrom none markup.children = .ok parts ∧ renderList none parts.body = .ok rendered ∧
      ∃ ns : List Node, parseFragment ("\n".intercalate rendered).toList {} = .ok ns := by
  have hbody : (body? none settledMarkup).isSome = true := by decide +kernel
  have hraw : ∀ n ∈ settledMarkup.flatten, n.kind = "html" → isSettled n.text.toList = true := by
    decide +kernel
  have hraw := fun n hn hk => settled_of_isSettled (hraw n hn hk)
  obtain ⟨body, hbody⟩ := Option.isSome_iff_exists.mp hbody
  obtain ⟨ext, markup, parts, rendered, he, hm, hg, -⟩ := exists_of_body? hbody none
  obtain ⟨parts, rendered, hp, hr, hcode, hns⟩ := rendered_body_is_accepted he hm hg hraw {}
  exact ⟨ext, markup, parts, rendered, he, hm, hcode ▸ hg, hraw, hp, hr, hns⟩

/-- Two pieces of raw markup, each of which is accepted alone. -/
def looseBraces : Node :=
  .ofChildren
    [.leaf { kind := "html", value := "<a>\x7b</a>" }, .leaf { kind := "html", value := "<b>\x7d</b>" }]

/-- **Raw markup that is not settled may make the body unbalanced**: the brace in the first piece is
closed by the one in the second, so that the tags in between are no tags of the body. -/
theorem loose_braces_swallow_tags :
    ∃ (ext markup : Node) (parts : Parts) (rendered : List String),
      Extended.ofGeneric none looseBraces = .ok ext ∧ Markup.ofExtended ext = .ok markup ∧
      generate none markup = .ok (moduleText none parts rendered) ∧
      partsFrom none markup.children = .ok parts ∧ renderList none parts.body = .ok rendered ∧
      ∃ e : StructureError, parseFragment ("\n".intercalate rendered).toList {} = .error e := by
  have hbody : body? none looseBraces = some "<a>\x7b</a>\n<b>\x7d</b>" := by decide +kernel
  have hrejected : (parseFragment "<a>\x7b</a>\n<b>\x7d</b>".toList {}).isOk = false := by
    decide +kernel
  obtain ⟨ext, markup, parts, rendered, he, hm, hg, hp, hr, heq⟩ := exists_of_body? hbody none
  refine ⟨ext, markup, parts, rendered, he, hm, hg, hp, hr, ?_⟩
  rw [heq]
  cases hparse : parseFragment "<a>\x7b</a>\n<b>\x7d</b>".toList {} with
  | error e => exact ⟨e, rfl⟩
  | ok ns =>
    rw [hparse] at hrejected
    cases hrejected

end Mdx.Module
