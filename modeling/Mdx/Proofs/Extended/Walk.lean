import Mdx.Proofs.Extended.Additive
import Mdx.Proofs.Node.Walk

/-!
# Reclassification is a walk

Elements are put in the place of raw markup by a visitor: it replaces a node of raw markup, and the walk
goes on into the element.  A fault of the markup ends all that; a walk has no way to fail, so the visitor
keeps the fault and passes over what is left.

A walk goes into the elements that it has just made, whose size is not known beforehand.  So what is shown
is that some number of visits is enough, and that any larger number gives the same (`walk_reclassifier`).
The invariant is `WalksAs`: one visit, with all visits below it, leaves what `reclassify` gives, or its
fault.
-/

namespace Mdx.Extended

open Mdx.Node (mem_flatten)

variable {doc : Option Document}

/-- The position of the innermost ancestor that has one. -/
def nearestOf (ancestors : List Node) : Option Position :=
  ancestors.reverse.findSome? Node.position

/-- The visitor that puts elements in the place of raw markup.  Once there is a fault it changes nothing. -/
def reclassifier (doc : Option Document) : Visitor (Option StructureError)
  | some e, _, n => (some e, { move := .skip, node := n })
  | none, ancestors, n =>
      if n.kind = "html" then
        match elementOf doc (nearestOf ancestors) n.head with
        | .error e => (some e, { move := .skip, node := n })
        | .ok m => (none, { move := .descend, node := m })
      else (none, { move := .descend, node := n })

/-- The fault of a computation, if it fails. -/
def fault? {α : Type} : Except StructureError α → Option StructureError
  | .ok _ => none
  | .error e => some e

/-- What a walk comes to: its tree, or the fault that was met. -/
def settle : Option StructureError × Except StructureError Node → Except StructureError Node
  | (some e, _) => .error e
  | (none, result) => result

theorem nearestOf_append (ancestors : List Node) (n : Node) :
    nearestOf (ancestors ++ [n]) = n.position.or (nearestOf ancestors) := by
  rw [nearestOf, List.reverse_append, List.reverse_singleton, List.singleton_append,
    List.findSome?_cons]
  cases n.position <;> rfl

theorem reclassify_other {nearest : Option Position} {n : Node} (hk : n.kind ≠ "html") :
    reclassify doc nearest n =
      (reclassifyList doc (n.position.or nearest) n.children).map fun ms => n.withChildren ms := by
  cases n with
  | leaf head => exact if_neg hk
  | branch head cs =>
    rw [reclassify, if_neg (show head.kind ≠ "html" from hk)]
    show _ = (reclassifyList doc (head.position.or nearest) cs).map _
    cases reclassifyList doc (head.position.or nearest) cs <;> rfl

/-! ### Single visits -/

section Visit

variable {ancestors : List Node} {n : Node}

theorem reclassifier_other (hk : n.kind ≠ "html") :
    reclassifier doc none ancestors n = (none, { move := .descend, node := n }) :=
  if_neg hk

theorem reclassifier_error (hk : n.kind = "html") {e : StructureError}
    (h : elementOf doc (nearestOf ancestors) n.head = .error e) :
    reclassifier doc none ancestors n = (some e, { move := .skip, node := n }) := by
  rw [reclassifier, if_pos hk, h]

theorem reclassifier_ok (hk : n.kind = "html") {m : Node}
    (h : elementOf doc (nearestOf ancestors) n.head = .ok m) :
    reclassifier doc none ancestors n = (none, { move := .descend, node := m }) := by
  rw [reclassifier, if_pos hk, h]

end Visit

/-- After a fault the walk passes over all nodes. -/
theorem siblings_fault {bound : Nat} {ns : List Node} (hbound : ns.length ≤ bound) (e : StructureError)
    (ancestors done : List Node) :
    Walk.siblings (reclassifier doc) bound (some e) ancestors done ns =
      some (some e, done.reverse ++ ns) := by
  induction ns generalizing bound done with
  | nil => rw [Walk.siblings_nil, List.append_nil]
  | cons n rest ih =>
    obtain ⟨bound, rfl⟩ := Nat.exists_eq_add_of_le' (Nat.le_trans (Nat.le_add_left 1 _) hbound)
    have hrest : rest.length ≤ bound := Nat.le_of_succ_le_succ hbound
    have hskip : (reclassifier doc (some e) ancestors n).2.move = .skip := rfl
    rw [Walk.siblings_skip _ _ _ hskip]
    show Walk.siblings _ bound (some e) ancestors (n :: done) (rest ++ []) = _
    rw [List.append_nil, ih hrest, List.reverse_cons, List.append_assoc, List.singleton_append]

/-! ### Visits with all that is below -/

/-- A visit leaves what reclassification gives, or the fault with some node, as soon as enough visits are
allowed. -/
def WalksAs (doc : Option Document) (n : Node) : Prop :=
  ∀ ancestors : List Node, ∃ bound : Nat, ∀ larger : Nat, bound ≤ larger →
    ∃ left : Node, (∀ m : Node, reclassify doc (nearestOf ancestors) n = .ok m → left = m) ∧
      ∀ done rest : List Node,
        Walk.siblings (reclassifier doc) (larger + 1) none ancestors done (n :: rest) =
          Walk.siblings (reclassifier doc) larger (fault? (reclassify doc (nearestOf ancestors) n))
            ancestors (left :: done) rest

/-- **Siblings are reclassified one after another**, up to the first fault. -/
theorem siblings_reclassifier {ns : List Node} (h : ∀ n ∈ ns, WalksAs doc n) (ancestors : List Node) :
    ∃ bound : Nat, ∀ larger : Nat, bound ≤ larger →
      ∃ out : List Node,
        (∀ ms : List Node, reclassifyList doc (nearestOf ancestors) ns = .ok ms → out = ms) ∧
        ∀ done : List Node, Walk.siblings (reclassifier doc) larger none ancestors done ns =
          some (fault? (reclassifyList doc (nearestOf ancestors) ns), done.reverse ++ out) := by
  induction ns with
  | nil =>
    refine ⟨0, fun larger _ => ⟨[], fun ms hms => Except.ok.inj hms, fun done => ?_⟩⟩
    rw [Walk.siblings_nil, List.append_nil]
    rfl
  | cons n rest ih =>
    obtain ⟨hn, hrest⟩ := List.forall_mem_cons.mp h
    obtain ⟨first, hfirst⟩ := hn ancestors
    obtain ⟨later, hlater⟩ := ih hrest
    refine ⟨first + later + rest.length + 1, fun larger hle => ?_⟩
    obtain ⟨larger, rfl⟩ := Nat.exists_eq_add_of_le' (Nat.le_trans (Nat.le_add_left 1 _) hle)
    obtain ⟨left, hleft, hvisit⟩ := hfirst larger (by omega)
    rw [reclassifyList]
    cases hr : reclassify doc (nearestOf ancestors) n with
    | error e =>
      refine ⟨left :: rest, fun ms hms => ?_, fun done => ?_⟩
      · cases hms
      · rw [hvisit, hr]
        show Walk.siblings _ larger (some e) ancestors (left :: done) rest = some (some e, _)
        rw [siblings_fault (by omega), List.reverse_cons, List.append_assoc, List.singleton_append]
    | ok m =>
      obtain rfl := hleft m hr
      obtain ⟨out, hout, hwalk⟩ := hlater larger (by omega)
      refine ⟨left :: out, fun ms hms => ?_, fun done => ?_⟩
      · cases hl : reclassifyList doc (nearestOf ancestors) rest with
        | error e =>
          rw [hl] at hms
          cases hms
        | ok ms' =>
          rw [hl] at hms
          rw [hout ms' hl]
          exact Except.ok.inj hms
      · rw [hvisit, hr]
        show Walk.siblings _ larger none ancestors (left :: done) rest = _
        rw [hwalk, List.reverse_cons, List.append_assoc, List.singleton_append]
        cases reclassifyList doc (nearestOf ancestors) rest <;> rfl

theorem walksAs_of_children {n : Node} (hk : n.kind ≠ "html") (h : ∀ c ∈ n.children, WalksAs doc c) :
    WalksAs doc n := by
  intro ancestors
  obtain ⟨bound, hbound⟩ := siblings_reclassifier h (ancestors ++ [n])
  refine ⟨bound, fun larger hle => ?_⟩
  obtain ⟨out, hout, hwalk⟩ := hbound larger hle
  rw [nearestOf_append] at hout hwalk
  refine ⟨n.withChildren out, fun m hm => ?_, fun done rest => ?_⟩
  · rw [reclassify_other hk] at hm
    obtain ⟨ms, hms, rfl⟩ := exists_ok_of_map hm
    rw [hout ms hms]
  · have hvisit : reclassifier doc none ancestors n = (none, { move := .descend, node := n }) :=
      reclassifier_other hk
    rw [Walk.siblings_descend _ _ _ (congrArg (·.2.move) hvisit), hvisit, reclassify_other hk]
    dsimp only
    rw [hwalk, Option.bind_some, List.append_nil]
    cases reclassifyList doc (n.position.or (nearestOf ancestors)) n.children <;> rfl

theorem walksAs_of_plain {n : Node} (h : ∀ x ∈ n.flatten, x.kind ≠ "html") : WalksAs doc n := by
  induction n using Node.induction with
  | step n ih =>
    refine walksAs_of_children (h n (mem_flatten.mpr (.inl rfl))) fun c hc => ih c hc fun x hx => ?_
    exact h x (mem_flatten.mpr (.inr ⟨c, hc, hx⟩))

/-- Raw markup is replaced by its element, in which there is no raw markup left to be replaced. -/
theorem walksAs_raw {n : Node} (hk : n.kind = "html") : WalksAs doc n := by
  intro ancestors
  rw [reclassify_raw hk]
  cases he : elementOf doc (nearestOf ancestors) n.head with
  | error e =>
    refine ⟨0, fun larger _ => ⟨n, fun m hm => ?_, fun done rest => ?_⟩⟩
    · cases hm
    · have hvisit := reclassifier_error hk he
      rw [Walk.siblings_skip _ _ _ (congrArg (·.2.move) hvisit), hvisit]
      dsimp only
      rw [List.append_nil]
      rfl
  | ok element =>
    have hplain : ∀ c ∈ element.children, ∀ x ∈ c.flatten, x.kind ≠ "html" := by
      intro c hc x hx
      rcases kind_of_mem_elementOf he (mem_flatten.mpr (.inr ⟨c, hc, hx⟩)) with hx | hx
      · rw [hx]; decide
      · rw [hx]; decide
    have hsame : reclassifyList doc (nearestOf (ancestors ++ [element])) element.children =
        .ok element.children := by
      refine reclassifyList_eq_ok_iff.mpr (List.forall₂_same.mpr fun c hc => ?_)
      exact reclassify_eq_ok_iff.mpr (reclassified_self (hplain c hc))
    obtain ⟨bound, hbound⟩ :=
      siblings_reclassifier (fun c hc => walksAs_of_plain (hplain c hc)) (ancestors ++ [element])
    refine ⟨bound, fun larger hle => ?_⟩
    obtain ⟨out, hout, hwalk⟩ := hbound larger hle
    obtain rfl := hout _ hsame
    refine ⟨element, fun m hm => Except.ok.inj hm, fun done rest => ?_⟩
    have hvisit := reclassifier_ok hk he
    have hleft : element.withChildren element.children = element := by cases element <;> rfl
    rw [Walk.siblings_descend _ _ _ (congrArg (·.2.move) hvisit), hvisit]
    dsimp only
    rw [hwalk, hsame, Option.bind_some, List.append_nil, List.reverse_nil, List.nil_append, hleft]
    rfl

theorem walksAs (doc : Option Document) (n : Node) : WalksAs doc n := by
  induction n using Node.induction with
  | step n ih =>
    by_cases hk : n.kind = "html"
    · exact walksAs_raw hk
    · exact walksAs_of_children hk ih

/-- **Reclassification is a walk** with as many visits as it takes: the walk comes to the tree that
`reclassify` gives, or to its fault. -/
theorem walk_reclassifier (doc : Option Document) (tree : Node) :
    ∃ bound : Nat, ∀ larger : Nat, bound ≤ larger →
      (tree.walk (reclassifier doc) larger none).map settle = some (reclassify doc none tree) := by
  obtain ⟨bound, hbound⟩ := walksAs doc tree []
  refine ⟨bound, fun larger hle => ?_⟩
  obtain ⟨left, hleft, hvisit⟩ := hbound larger hle
  have hwalk := hvisit [] []
  rw [Walk.siblings_nil] at hwalk
  rw [Walk.walk_of_siblings hwalk ?_, Option.map_some]
  change _ = some (reclassify doc (nearestOf []) tree)
  · cases hr : reclassify doc (nearestOf []) tree with
    | error e => rfl
    | ok m =>
      rw [hleft m hr]
      rfl
  · by_cases hk : tree.kind = "html"
    · cases he : elementOf doc (nearestOf []) tree.head with
      | error e => rw [reclassifier_error hk he]
      | ok m => rw [reclassifier_ok hk he]
    · rw [reclassifier_other hk]

end Mdx.Extended
