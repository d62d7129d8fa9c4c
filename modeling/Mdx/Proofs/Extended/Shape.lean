import Mdx.Proofs.Extended.Additive

/-!
# Extension and the shape of a tree

Whether raw markup can be reclassified, and of which kind the nodes are then, depends on the shape of a
tree and not on the positions in it (`alike_reclassify`).  So two trees of one shape are extended alike if
their statements are extracted alike (`alike_ofGeneric`).
-/

namespace Mdx

/-! ### Checks -/

namespace Node

theorem map_kind_flatten (n : Node) : n.bare.flatten.map kind = n.flatten.map kind := by
  rw [flatten_bare, List.map_map]
  exact List.map_congr_left fun x _ => kind_bare x

theorem alike_validate {n n' : Node} (h : n.bare = n'.bare) (vocabulary : List String)
    (stage : String) :
    Alike (fun _ _ => True) (n.validate vocabulary stage) (n'.validate vocabulary stage) := by
  have hkind : n.kind = n'.kind := by rw [← kind_bare n, h, kind_bare]
  have hkinds : n.flatten.map kind = n'.flatten.map kind := by
    rw [← map_kind_flatten n, h, map_kind_flatten]
  have hall (m : Node) : (∀ x ∈ m.flatten, x.kind ∈ vocabulary) ↔
      ∀ k ∈ m.flatten.map kind, k ∈ vocabulary := by
    simp only [List.forall_mem_map]
  have hiff : n.validate vocabulary stage = .ok () ↔ n'.validate vocabulary stage = .ok () := by
    rw [validate_eq_ok_iff, validate_eq_ok_iff, hall, hall, hkind, hkinds]
  cases hv : n.validate vocabulary stage with
  | ok u =>
    rw [hiff.mp hv]
    exact .ok trivial
  | error e =>
    cases hv' : n'.validate vocabulary stage with
    | ok u =>
      rw [hiff.mpr hv'] at hv
      cases hv
    | error e' => exact .error

theorem forall₂_of_bareList {R : Node → Node → Prop} {ns ns' : List Node}
    (h : bareList ns = bareList ns') (hR : ∀ n ∈ ns, ∀ n' : Node, n.bare = n'.bare → R n n') :
    List.Forall₂ R ns ns' := by
  induction ns generalizing ns' with
  | nil =>
    cases ns' with
    | nil => exact .nil
    | cons n' rest' => cases h
  | cons n rest ih =>
    cases ns' with
    | nil => cases h
    | cons n' rest' =>
      obtain ⟨hn, hrest⟩ := List.cons.inj h
      obtain ⟨hRn, hRrest⟩ := List.forall_mem_cons.mp hR
      exact .cons (hRn n' hn) (ih hrest hRrest)

end Node

/-! ### Raw markup -/

namespace Element

theorem alike_parseFragment (src : List Char) (place place' : Placement) :
    Alike (fun _ _ => True) (parseFragment src place) (parseFragment src place') := by
  by_cases hok : (tokens src).2 = none ∧ Nonempty (Fragment (tokens src).1)
  · obtain ⟨hlex, ⟨d⟩⟩ := hok
    rw [parseFragment_eq_ok_iff.mpr ⟨hlex, d, rfl⟩, parseFragment_eq_ok_iff.mpr ⟨hlex, d, rfl⟩]
    exact .ok trivial
  · obtain ⟨e, he⟩ := (@parseFragment_eq_error_iff src place).mpr hok
    obtain ⟨e', he'⟩ := (@parseFragment_eq_error_iff src place').mpr hok
    rw [he, he']
    exact .error

theorem alike_parseChildren (src : List Char) (place place' : Placement) :
    Alike (fun _ _ => True) (parseChildren src place) (parseChildren src place') := by
  rw [parseChildren_eq, parseChildren_eq]
  rcases alike_parseFragment src place place' with ⟨ns, ns', hns, hns', -⟩ | ⟨e, e', he, he'⟩
  · rw [hns, hns']
    exact .ok trivial
  · rw [he, he']
    exact .error

end Element

namespace Extended

open Mdx.Element Mdx.Node

/-- The nodes are reclassified alike, into nodes of the same kind. -/
def LikeNodes (doc doc' : Option Document) (n n' : Node) : Prop :=
  ∀ nearest nearest' : Option Position,
    Alike (fun m m' => m.kind = m'.kind) (reclassify doc nearest n) (reclassify doc' nearest' n')

variable {doc doc' : Option Document}

theorem alike_reclassifyList {ns ns' : List Node} (h : List.Forall₂ (LikeNodes doc doc') ns ns')
    (nearest nearest' : Option Position) :
    Alike (fun ms ms' => ms.map Node.kind = ms'.map Node.kind) (reclassifyList doc nearest ns)
      (reclassifyList doc' nearest' ns') := by
  induction h with
  | nil =>
    rw [reclassifyList, reclassifyList]
    exact .ok rfl
  | cons hn _ ih =>
    rw [reclassifyList, reclassifyList]
    rcases hn nearest nearest' with ⟨m, m', hm, hm', hkind⟩ | ⟨e, e', he, he'⟩
    · rw [hm, hm']
      rcases ih with ⟨ms, ms', hms, hms', hkinds⟩ | ⟨e, e', he, he'⟩
      · rw [hms, hms']
        refine .ok ?_
        rw [List.map_cons, List.map_cons, hkind, hkinds]
      · rw [he, he']
        exact .error
    · rw [he, he']
      exact .error

theorem alike_branch {h h' : NodeHead} {ns ns' : List Node} (hk : h.kind = h'.kind)
    (hne : h.kind ≠ "html") (hns : List.Forall₂ (LikeNodes doc doc') ns ns')
    (nearest nearest' : Option Position) :
    Alike (fun m m' => m.kind = m'.kind ∧ m.children.map Node.kind = m'.children.map Node.kind)
      (reclassify doc nearest (.branch h ns)) (reclassify doc' nearest' (.branch h' ns')) := by
  rw [reclassify, reclassify, if_neg hne, if_neg (hk ▸ hne)]
  rcases alike_reclassifyList hns (h.position.or nearest) (h'.position.or nearest') with
    ⟨ms, ms', hms, hms', hkinds⟩ | ⟨e, e', he, he'⟩
  · rw [hms, hms']
    exact .ok ⟨hk, hkinds⟩
  · rw [he, he']
    exact .error

theorem alike_elementOf {h h' : NodeHead} (hv : h.value = h'.value)
    (nearest nearest' : Option Position) :
    Alike (fun m m' => m.kind = m'.kind) (elementOf doc nearest h) (elementOf doc' nearest' h') := by
  rw [elementOf, elementOf, hv]
  rcases alike_parseChildren (h'.value.getD "").toList
    (placement doc nearest h (h'.value.getD "").toList)
    (placement doc' nearest' h' (h'.value.getD "").toList) with
    ⟨cs, cs', hcs, hcs', -⟩ | ⟨e, e', he, he'⟩
  · rw [hcs, hcs']
    exact .ok rfl
  · rw [he, he']
    exact .error

/-- **Trees of one shape are reclassified alike.** -/
theorem alike_reclassify {n n' : Node} (h : n.bare = n'.bare) : LikeNodes doc doc' n n' := by
  induction n using Node.induction generalizing n' with
  | step n ih =>
    intro nearest nearest'
    have hkind : n.kind = n'.kind := by rw [← kind_bare n, h, kind_bare]
    by_cases hk : n.kind = "html"
    · have hvalue : n.head.value = n'.head.value := by
        have hbare (m : Node) : m.bare.head.value = m.head.value := by cases m <;> rfl
        rw [← hbare n, h, hbare]
      rw [reclassify_raw hk, reclassify_raw (hkind ▸ hk)]
      exact alike_elementOf hvalue nearest nearest'
    · cases n with
      | leaf a =>
        cases n' with
        | leaf a' =>
          have hne : a.kind ≠ "html" := hk
          have hne' : a'.kind ≠ "html" := fun hk' => hk (hkind.trans hk')
          rw [reclassify, reclassify, if_neg hne, if_neg hne']
          exact .ok hkind
        | branch a' cs' => cases h
      | branch a cs =>
        cases n' with
        | leaf a' => cases h
        | branch a' cs' =>
          obtain ⟨-, hcs⟩ := Node.branch.inj h
          have hlike : List.Forall₂ (LikeNodes doc doc') cs cs' :=
            forall₂_of_bareList hcs fun c hc c' hcc => ih c hc hcc
          exact (alike_branch hkind hk hlike nearest nearest').mono fun m m' hm => hm.1

theorem IsStatement.likeNodes {n n' : Node} (hn : IsStatement n) (hn' : IsStatement n')
    (hk : n.kind = n'.kind) : LikeNodes doc doc' n n' := by
  intro nearest nearest'
  rw [reclassify_eq_ok_iff.mpr (hn.reclassified_iff.mpr rfl),
    reclassify_eq_ok_iff.mpr (hn'.reclassified_iff.mpr rfl)]
  exact .ok hk

/-! ### Extended trees -/

/-- The kinds of a tree's children. -/
def childKinds (n : Node) : List String :=
  n.children.map Node.kind

/-- **Trees of one shape are extended alike**, if their statements are extracted alike. -/
theorem alike_ofGeneric {source source' : Option (List Char)} {tree tree' : Node}
    (hshape : tree.bare = tree'.bare)
    (hextract : Alike (List.Forall₂
        (LikeNodes (source.map Document.ofText) (source'.map Document.ofText)))
      (extractStatements (source.map Document.ofText) tree.children)
      (extractStatements (source'.map Document.ofText) tree'.children)) :
    Alike (fun ext ext' => childKinds ext = childKinds ext') (ofGeneric source tree)
      (ofGeneric source' tree') := by
  have hvalid : Alike (fun _ _ => True) (tree.validate Vocabulary.generic "parse")
      (tree'.validate Vocabulary.generic "parse") :=
    Node.alike_validate hshape _ _
  have hkind : tree.head.kind = tree'.head.kind := by
    rw [← Node.kind, ← kind_bare, hshape, kind_bare]
    rfl
  unfold ofGeneric
  refine hvalid.attach.bind ?_
  rintro _ _ ⟨hv, hv', -⟩
  refine hextract.attach.bind ?_
  rintro cs cs' ⟨hcs, hcs', hlike⟩
  have hroot : tree.head.kind ≠ "html" := by
    have hroot : tree.head.kind = "root" := (Node.validate_eq_ok_iff.mp hv).1
    rw [hroot]
    decide
  refine (alike_branch hkind hroot hlike none none).attach.bind ?_
  rintro ext ext' ⟨hr, hr', -, hkinds⟩
  rw [validate_extended hv hcs hr, validate_extended hv' hcs' hr']
  exact .ok hkinds

end Extended

end Mdx
