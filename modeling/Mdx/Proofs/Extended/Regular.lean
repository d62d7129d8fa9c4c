import Mdx.Extended.Autolink
import Mdx.Proofs.Extended.Additive
import Mdx.Proofs.Markup.Mapping

/-!
# What extension and image links keep

Reclassifying raw markup and putting images in place of addresses keep nodes regular
(`Reclassified.regular`, `regular_autolink`), and after both the outermost embedded elements are those
made of raw markup (`Reclassified.outer`, `outer_autolink`).
-/

namespace Mdx.Extended

open Mdx.Markup (Outer Regular admits childKind? freeKinds regular_of_free)
open Mdx.Node (flatten_eq flattenStack mem_flatten mem_flattenStack)

/-! ### Reclassified trees -/

section Reclassified

variable {doc : Option Document} {nearest : Option Position} {n m : Node}

theorem Reclassified.kind_eq (h : Reclassified doc nearest n m) (hk : n.kind ≠ "html") :
    m.kind = n.kind := by
  cases h with
  | raw hk' _ => exact absurd hk' hk
  | leaf _ => rfl
  | branch _ _ => rfl

theorem Reclassified.admits {kind : String} (h : Reclassified doc nearest n m)
    (hn : admits kind n = true) : admits kind m = true := by
  rw [Markup.admits] at hn ⊢
  cases hkind : childKind? kind with
  | none => rfl
  | some k =>
    rw [hkind] at hn
    have hk : n.kind = k := beq_iff_eq.mp hn
    have hne : n.kind ≠ "html" := by
      rw [hk]
      unfold childKind? at hkind
      split at hkind <;> cases hkind <;> decide
    exact beq_iff_eq.mpr ((h.kind_eq hne).trans hk)

/-- **Regular nodes stay regular**, and no raw markup is left. -/
theorem Reclassified.regular (h : Reclassified doc nearest n m)
    (hr : ∀ x ∈ n.flatten, Regular x) : ∀ x ∈ m.flatten, Regular x ∧ x.kind ≠ "html" := by
  induction n using Node.induction generalizing nearest m with
  | step n ih =>
    intro x hx
    have hself : Regular n := hr n (mem_flatten.mpr (.inl rfl))
    have hm := reclassify_eq_ok_iff.mpr h
    cases h with
    | raw hk hp =>
      rw [reclassify_raw hk] at hm
      rcases kind_of_mem_elementOf hm hx with hkx | hkx
      · exact ⟨regular_of_free (by rw [hkx]; decide), by rw [hkx]; decide⟩
      · exact ⟨regular_of_free (by rw [hkx]; decide), by rw [hkx]; decide⟩
    | leaf hk =>
      simp only [flatten_eq, Node.children, Node.flattenStack_nil, List.mem_singleton] at hx
      subst hx
      exact ⟨hself, hk⟩
    | @branch _ head cs ms hk hc =>
      rcases mem_flatten.mp hx with rfl | ⟨c, hcm, hxc⟩
      · refine ⟨⟨hself.shape, fun c hcm => ?_⟩, hk⟩
        obtain ⟨b, hb, hbc⟩ := exists_of_mem_right (reclassifiedList_iff.mp hc) hcm
        exact hbc.admits (hself.admitted b hb)
      · obtain ⟨b, hb, hbc⟩ := exists_of_mem_right (reclassifiedList_iff.mp hc) hcm
        exact ih b hb hbc (fun y hy => hr y (mem_flatten.mpr (.inr ⟨b, hb, hy⟩))) x hxc

theorem not_special_of_generic {kind : String} (h : kind ∈ Vocabulary.generic) :
    kind ∉ Vocabulary.special := by
  have hdisjoint : ∀ kind ∈ Vocabulary.generic, kind ∉ Vocabulary.special := by decide
  exact hdisjoint kind h

/-- **The outermost embedded elements are those made of raw markup**, if there were none before. -/
theorem Reclassified.outer {Q : Node → Prop} (h : Reclassified doc nearest n m)
    (hs : ∀ y ∈ n.flatten, y.kind ∈ Vocabulary.generic)
    (hq : ∀ y ∈ n.flatten, y.kind = "html" → ∀ (near : Option Position) (w : Node),
      elementOf doc near y.head = .ok w → Q w) : Outer Q m := by
  induction n using Node.induction generalizing nearest m with
  | step n ih =>
    have hself : n ∈ n.flatten := mem_flatten.mpr (.inl rfl)
    have hm := reclassify_eq_ok_iff.mpr h
    cases h with
    | raw hk hp =>
      rw [reclassify_raw hk] at hm
      exact .stop rfl (hq n hself hk nearest _ hm)
    | leaf hk => exact .go (not_special_of_generic (hs _ hself)) (List.forall_mem_nil _)
    | @branch _ head cs ms hk hc =>
      refine .go (not_special_of_generic (hs (.branch head cs) hself)) fun c hcm => ?_
      obtain ⟨b, hb, hbc⟩ := exists_of_mem_right (reclassifiedList_iff.mp hc) hcm
      have hsub : ∀ y ∈ b.flatten, y ∈ (Node.branch head cs).flatten :=
        fun y hy => mem_flatten.mpr (.inr ⟨b, hb, hy⟩)
      exact ih b hb hbc (fun y hy => hs y (hsub y hy)) fun y hy => hq y (hsub y hy)

end Reclassified

/-! ### Statements -/

/-- A statement is its own markup. -/
theorem IsStatement.ofNode_eq {c : Node} (h : IsStatement c) : Markup.ofNode c = .ok c := by
  obtain ⟨head, rfl, hk⟩ := h
  have hspecial : Vocabulary.special.contains head.kind = true := by
    rcases hk with hk | hk <;> rw [hk] <;> decide
  have hshape : Markup.shapeOf head = .ok .kept := by
    rw [Markup.shapeOf, if_pos hspecial]
  exact Markup.ofNode_kept hshape

theorem IsStatement.isContent_eq {c : Node} (h : IsStatement c) : Module.isContent c = false := by
  obtain ⟨head, rfl, hk⟩ := h
  show (head.kind != "import" && head.kind != "export") = false
  rcases hk with hk | hk <;> rw [hk] <;> rfl

/-! ### Image links -/

section Autolink

variable {extensions : List String}

theorem head_autolink (n : Node) : (autolink extensions n).head = n.head := by
  cases n <;> rfl

theorem kind_autolink (n : Node) : (autolink extensions n).kind = n.kind := by
  cases n <;> rfl

theorem autolinkList_eq_map (ns : List Node) :
    autolinkList extensions ns = ns.map (autolink extensions) := by
  induction ns with
  | nil => rfl
  | cons n rest ih => rw [autolinkList, ih, List.map_cons]

/-- The children of a node after image links are made: an image alone in a paragraph, the same children
as before, or each child with image links made in it. -/
theorem children_autolink (extensions : List String) (n : Node) :
    (n.kind = "paragraph" ∧ ((autolink extensions n).children = n.children ∨
      ∃ url : List Char, (autolink extensions n).children = [imageNode url])) ∨
    n.kind ≠ "paragraph" ∧
      (autolink extensions n).children = n.children.map (autolink extensions) := by
  cases n with
  | leaf h =>
    by_cases hk : h.kind = "paragraph"
    · exact .inl ⟨hk, .inl rfl⟩
    · exact .inr ⟨hk, rfl⟩
  | branch h cs =>
    by_cases hk : h.kind = "paragraph"
    · refine .inl ⟨hk, ?_⟩
      show (if h.kind = "paragraph" then linkImage extensions cs else _) = cs ∨ ∃ url : List Char,
        (if h.kind = "paragraph" then linkImage extensions cs else _) = [imageNode url]
      rw [if_pos hk]
      unfold linkImage
      split
      · dsimp only
        split
        · exact .inr ⟨_, rfl⟩
        · exact .inl rfl
      · exact .inl rfl
    · refine .inr ⟨hk, ?_⟩
      show (if h.kind = "paragraph" then _ else autolinkList extensions cs) = _
      rw [if_neg hk, autolinkList_eq_map]
      rfl

/-- **Regular nodes stay regular.** -/
theorem regular_autolink {n : Node} (hr : ∀ x ∈ n.flatten, Regular x ∧ x.kind ≠ "html") :
    ∀ x ∈ (autolink extensions n).flatten, Regular x ∧ x.kind ≠ "html" := by
  induction n using Node.induction with
  | step n ih =>
    obtain ⟨⟨hshape, hadmitted⟩, hne⟩ := hr n (mem_flatten.mpr (.inl rfl))
    have hbelow : ∀ c ∈ n.children, ∀ x ∈ c.flatten, Regular x ∧ x.kind ≠ "html" :=
      fun c hc x hx => hr x (mem_flatten.mpr (.inr ⟨c, hc, hx⟩))
    have hnode : (∀ c ∈ (autolink extensions n).children, admits n.kind c = true) →
        Regular (autolink extensions n) := by
      intro hc
      constructor
      · rw [kind_autolink, head_autolink]
        exact hshape
      · rw [kind_autolink]
        exact hc
    intro x hx
    rcases children_autolink extensions n with ⟨hk, hsame | ⟨url, hurl⟩⟩ | ⟨-, hmap⟩
    · rcases mem_flatten.mp hx with rfl | ⟨c, hc, hxc⟩
      · rw [kind_autolink]
        exact ⟨hnode (by rw [hsame]; exact hadmitted), hne⟩
      · rw [hsame] at hc
        exact hbelow c hc x hxc
    · rcases mem_flatten.mp hx with rfl | ⟨c, hc, hxc⟩
      · rw [kind_autolink]
        refine ⟨hnode fun c _ => ?_, hne⟩
        rw [hk]
        rfl
      · rw [hurl, List.mem_singleton] at hc
        subst hc
        rw [flatten_eq, imageNode, Node.children, Node.flattenStack_nil, List.mem_singleton] at hxc
        subst hxc
        exact ⟨regular_of_free (by show "image" ∈ freeKinds; decide), by show "image" ≠ "html"; decide⟩
    · rcases mem_flatten.mp hx with rfl | ⟨c, hc, hxc⟩
      · rw [kind_autolink]
        refine ⟨hnode fun c hc => ?_, hne⟩
        rw [hmap] at hc
        obtain ⟨b, hb, rfl⟩ := List.mem_map.mp hc
        rw [Markup.admits, kind_autolink]
        exact hadmitted b hb
      · rw [hmap] at hc
        obtain ⟨b, hb, rfl⟩ := List.mem_map.mp hc
        exact ih b hb (hbelow b hb) x hxc

theorem autolink_eq_self {n : Node} (h : ∀ x ∈ n.flatten, x.kind ≠ "paragraph") :
    autolink extensions n = n := by
  induction n using Node.induction with
  | step n ih =>
    cases n with
    | leaf head => rfl
    | branch head cs =>
      have hk : head.kind ≠ "paragraph" := h _ (mem_flatten.mpr (.inl rfl))
      have hcs : autolinkList extensions cs = cs := by
        have hself : ∀ c ∈ cs, autolink extensions c = id c :=
          fun c hc => ih c hc fun x hx => h x (mem_flatten.mpr (.inr ⟨c, hc, hx⟩))
        rw [autolinkList_eq_map, List.map_congr_left hself, List.map_id]
      rw [autolink, if_neg hk, hcs]

/-- **The outermost embedded elements stay**, since there are no paragraphs in them. -/
theorem outer_autolink {Q : Node → Prop} (hQ : ∀ w : Node, Q w → ∀ x ∈ w.flatten, x.kind ≠ "paragraph")
    {n : Node} (h : Outer Q n) : Outer Q (autolink extensions n) := by
  induction h with
  | @stop n hk hp =>
    rw [autolink_eq_self (hQ n hp)]
    exact .stop hk hp
  | @go n hk hc ih =>
    refine .go (by rw [kind_autolink]; exact hk) fun c hcm => ?_
    rcases children_autolink extensions n with ⟨-, hsame | ⟨url, hurl⟩⟩ | ⟨-, hmap⟩
    · rw [hsame] at hcm
      exact hc c hcm
    · rw [hurl, List.mem_singleton] at hcm
      subst hcm
      exact .go (by show "image" ∉ Vocabulary.special; decide) (List.forall_mem_nil _)
    · rw [hmap] at hcm
      obtain ⟨b, hb, rfl⟩ := List.mem_map.mp hcm
      exact ih b hb

end Autolink

end Mdx.Extended
