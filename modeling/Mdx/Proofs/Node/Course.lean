import Mdx.Proofs.Node.Order
import Mdx.Proofs.Node.Walk
import Mdx.Proofs.Text.Runs

/-!
# A walk makes exactly the visitor's edits

A rule may go on replacing nodes for ever.  `firstVisits` is the course of a walk, however long it is.  If a rule
replaces nodes only finitely often on it, there is a result to ask for (`replacesFinitely_iff`): each replacement
is one of finitely many, and every other visit leaves less to visit.

Of the visits that follow on one, those one level down are of the children of the node that stands there, each
once and in order (`VisitsChildren`).
-/

namespace Mdx.Walk

/-! ### The course of a walk -/

namespace Rule

/-- Whether a visit is answered by another node. -/
def replaces (rule : Rule) (v : Visit) : Bool :=
  match rule.answer v with
  | .replace _ => true
  | _ => false

/-- The visits that an answer asks for: of the children of the node that stands there now. -/
def below (rule : Rule) (v : Visit) : List Visit :=
  (((rule.answer v).opened? v.node).map fun m =>
    m.children.map fun c => ⟨v.ancestors ++ [m], c⟩).getD []

end Rule

/-- The first visits of a walk, starting with those that are pending. -/
def firstVisits (rule : Rule) : Nat → List Visit → List Visit
  | 0, _ => []
  | _ + 1, [] => []
  | k + 1, v :: pending => v :: firstVisits rule k (rule.below v ++ pending)

/-- The rule replaces nodes only finitely often: however far the walk of the tree goes, no more than some number
of its visits are answered by another node. -/
def ReplacesFinitely (rule : Rule) (tree : Node) : Prop :=
  ∃ most : Nat, ∀ k : Nat,
    (firstVisits rule k [⟨[], tree⟩]).countP rule.replaces ≤ most

section Below

variable {rule : Rule} {v : Visit}

theorem below_of_opened {m : Node} (h : (rule.answer v).opened? v.node = some m) :
    rule.below v = m.children.map fun c => ⟨v.ancestors ++ [m], c⟩ := by
  rw [Rule.below, h]
  rfl

theorem below_of_not_opened (h : (rule.answer v).opened? v.node = none) : rule.below v = [] := by
  rw [Rule.below, h]
  rfl

/-- Without a replacement there is less to visit below a node than with it. -/
theorem size_below (h : rule.replaces v = false) :
    Node.sizeOfList ((rule.below v).map Visit.node) < v.node.size := by
  cases hopened : (rule.answer v).opened? v.node with
  | none =>
    rw [below_of_not_opened hopened, Node.size_eq]
    exact Nat.lt_of_lt_of_le Nat.zero_lt_one (Nat.le_add_right _ _)
  | some m =>
    obtain rfl : v.node = m := by
      rw [Rule.replaces] at h
      cases ha : rule.answer v <;> rw [ha] at h hopened <;> cases hopened <;> first | rfl | cases h
    have hnodes : (rule.below v).map Visit.node = v.node.children := by
      rw [below_of_opened hopened, List.map_map]
      exact List.map_id _
    rw [hnodes, Node.size_eq]
    exact Nat.lt_add_of_pos_left Nat.zero_lt_one

end Below

theorem firstVisits_cons {rule : Rule} {v : Visit} {visits pending after : List Visit}
    (h : ∀ k : Nat, firstVisits rule k (rule.below v ++ pending) =
      visits.take k ++ firstVisits rule (k - visits.length) after) (k : Nat) :
    firstVisits rule k (v :: pending) =
      (v :: visits).take k ++ firstVisits rule (k - (v :: visits).length) after := by
  cases k with
  | zero => rw [Nat.zero_sub]; rfl
  | succ k =>
    rw [firstVisits, h, List.take_succ_cons, List.length_cons, Nat.add_sub_add_right, List.cons_append]

/-- **The visits are the course of the walk.** -/
theorem firstVisits_of_edited {rule : Rule} {ancestors ns out : List Node} {visits : List Visit}
    (h : Edited rule ancestors ns visits out) (k : Nat) (pending : List Visit) :
    firstVisits rule k (ns.map (fun n => ⟨ancestors, n⟩) ++ pending) =
      visits.take k ++ firstVisits rule (k - visits.length) pending := by
  induction h generalizing k pending with
  | nil => rw [List.take_nil]; rfl
  | removed h _ ih =>
    rw [List.map_cons, List.cons_append]
    refine firstVisits_cons (fun k => ?_) k
    rw [below_of_not_opened (by rw [h]; rfl), List.nil_append, ih]
  | skipped h _ ih =>
    rw [List.map_cons, List.cons_append]
    refine firstVisits_cons (fun k => ?_) k
    rw [below_of_not_opened (by rw [h]; rfl), List.nil_append, ih]
  | opened h _ _ ihinner ihrest =>
    -- what is below the node comes first, and what is left of the visits goes to the other siblings
    rw [List.map_cons, List.cons_append]
    refine firstVisits_cons (fun k => ?_) k
    rw [below_of_opened h, ihinner, ihrest, List.take_append, List.length_append, Nat.sub_add_eq,
      List.append_assoc]

theorem firstVisits_tree {rule : Rule} {tree : Node} {out : List Node} {visits : List Visit}
    (h : Edited rule [] [tree] visits out) (k : Nat) :
    firstVisits rule k [⟨[], tree⟩] = visits.take k := by
  have hcourse := firstVisits_of_edited h k []
  have hnil : firstVisits rule (k - visits.length) [] = [] := by
    cases k - visits.length <;> rfl
  rwa [List.append_nil, hnil, List.append_nil] at hcourse

theorem exists_edited_all {rule : Rule} {ancestors : List Node} (ns : List Node)
    (h : ∀ n ∈ ns, ∃ visits out, Edited rule ancestors [n] visits out) :
    ∃ visits out, Edited rule ancestors ns visits out := by
  induction ns with
  | nil => exact ⟨[], [], .nil⟩
  | cons n rest ih =>
    obtain ⟨visits, out, hn⟩ := h n List.mem_cons_self
    obtain ⟨visits', out', hrest⟩ := ih fun c hc => h c (List.mem_cons_of_mem n hc)
    exact ⟨_, _, hn.append hrest⟩

theorem exists_edited_of_below {rule : Rule} {v : Visit}
    (h : ∀ w ∈ rule.below v, ∃ visits out, Edited rule w.ancestors [w.node] visits out) :
    ∃ visits out, Edited rule v.ancestors [v.node] visits out := by
  cases hopened : (rule.answer v).opened? v.node with
  | some m =>
    have hchildren : ∀ c ∈ m.children, ∃ visits out, Edited rule (v.ancestors ++ [m]) [c] visits out := by
      intro c hc
      refine h ⟨v.ancestors ++ [m], c⟩ ?_
      rw [below_of_opened hopened]
      exact List.mem_map_of_mem hc
    obtain ⟨inner, cs, hinner⟩ := exists_edited_all m.children hchildren
    exact ⟨_, _, .opened hopened hinner .nil⟩
  | none =>
    cases ha : rule.answer v with
    | remove => exact ⟨_, _, .removed ha .nil⟩
    | skip => exact ⟨_, _, .skipped ha .nil⟩
    | keep => rw [ha] at hopened; cases hopened
    | replace m => rw [ha] at hopened; cases hopened

theorem exists_edited_of_countP_le {rule : Rule} (most : Nat) (pending : List Visit)
    (h : ∀ k : Nat,
      (firstVisits rule k pending).countP rule.replaces ≤ most) :
    ∀ v ∈ pending, ∃ visits out, Edited rule v.ancestors [v.node] visits out := by
  -- a replacement leaves fewer of them, and any other visit fewer nodes
  induction most using Nat.strongRecOn generalizing pending with
  | ind most ihmost =>
    induction hsize : Node.sizeOfList (pending.map Visit.node) using Nat.strongRecOn generalizing pending with
    | ind size ihsize =>
      cases pending with
      | nil => exact fun v hv => absurd hv List.not_mem_nil
      | cons v rest =>
        have hnext : ∀ w ∈ rule.below v ++ rest,
            ∃ visits out, Edited rule w.ancestors [w.node] visits out := by
          cases hreplaced : rule.replaces v with
          | true =>
            have hcount : ∀ k : Nat, (firstVisits rule k (rule.below v ++ rest)).countP
                rule.replaces + 1 ≤ most := by
              intro k
              have hk := h (k + 1)
              rwa [firstVisits, List.countP_cons_of_pos hreplaced] at hk
            have hpos : 0 < most := Nat.lt_of_lt_of_le (Nat.succ_pos _) (hcount 0)
            exact ihmost (most - 1) (by omega) _ fun k => Nat.le_sub_one_of_lt (hcount k)
          | false =>
            refine ihsize _ ?_ (rule.below v ++ rest) (fun k => ?_) rfl
            · have hbelow := size_below hreplaced
              rw [← hsize, List.map_append, Node.sizeOfList_append, List.map_cons, Node.sizeOfList]
              omega
            · have hk := h (k + 1)
              rwa [firstVisits, List.countP_cons_of_neg (Bool.eq_false_iff.mp hreplaced)] at hk
        intro w hw
        rcases List.mem_cons.mp hw with rfl | hw
        · exact exists_edited_of_below fun x hx => hnext x (List.mem_append_left _ hx)
        · exact hnext w (List.mem_append_right _ hw)

/-- **A rule that replaces nodes only finitely often has a result**, and no other rule has. -/
theorem replacesFinitely_iff {rule : Rule} {tree : Node} :
    ReplacesFinitely rule tree ↔ ∃ visits out, Edited rule [] [tree] visits out := by
  constructor
  · rintro ⟨most, h⟩
    exact exists_edited_of_countP_le most [⟨[], tree⟩] h _ List.mem_cons_self
  · rintro ⟨visits, out, h⟩
    refine ⟨visits.length, fun k => ?_⟩
    rw [firstVisits_tree h]
    exact Nat.le_trans List.countP_le_length (List.length_take_le' _ _)

/-! ### The order of the visits -/

/-- How far down a visited node is. -/
def Visit.depth (v : Visit) : Nat :=
  v.ancestors.length

@[simp] theorem Visit.depth_mk (ancestors : List Node) (n : Node) :
    depth ⟨ancestors, n⟩ = ancestors.length := rfl

/-- **Visits of children**: of the visits further down that follow on a visit, those one level down are of the
children of the node that stands there now, each of them once and in order; the visitor is shown that node
after its ancestors. -/
def VisitsChildren (rule : Rule) (visits : List Visit) : Prop :=
  ∀ (v : Visit) (later : List Visit), v :: later <:+ visits →
    (later.takeWhile fun w => v.depth < w.depth).filter (fun w => w.depth = v.depth + 1) = rule.below v

theorem cons_suffix_append {α : Type} {a : α} {later xs ys : List α} (h : a :: later <:+ xs ++ ys) :
    (∃ inner, later = inner ++ ys ∧ a :: inner <:+ xs) ∨ a :: later <:+ ys := by
  induction xs with
  | nil => exact .inr h
  | cons x xs ih =>
    rcases List.suffix_cons_iff.mp h with heq | h
    · obtain ⟨rfl, rfl⟩ := List.cons.inj heq
      exact .inl ⟨xs, rfl, List.suffix_refl _⟩
    · refine (ih h).imp_left ?_
      rintro ⟨inner, hlater, hinner⟩
      exact ⟨inner, hlater, hinner.trans (List.suffix_cons x xs)⟩

namespace VisitsChildren

variable {rule : Rule}

theorem cons {v : Visit} {visits : List Visit} (h : VisitsChildren rule visits)
    (hv : (visits.takeWhile fun w => v.depth < w.depth).filter (fun w => w.depth = v.depth + 1) =
      rule.below v) : VisitsChildren rule (v :: visits) := by
  intro w later hw
  rcases List.suffix_cons_iff.mp hw with heq | hw
  · obtain ⟨rfl, rfl⟩ := List.cons.inj heq
    exact hv
  · exact h w later hw

/-- Visits that start no further down than all before them add nothing to what is below these. -/
theorem append {xs ys : List Visit} (hxs : VisitsChildren rule xs) (hys : VisitsChildren rule ys)
    (hup : ∀ v ∈ xs, ys.takeWhile (fun w => v.depth < w.depth) = []) : VisitsChildren rule (xs ++ ys) := by
  intro v later hv
  rcases cons_suffix_append hv with ⟨inner, rfl, hinner⟩ | hlater
  · rw [takeWhile_append_of_nil (hup v (hinner.subset List.mem_cons_self))]
    exact hxs v inner hinner
  · exact hys v later hlater

end VisitsChildren

namespace Edited

variable {rule : Rule} {ancestors ns out : List Node} {visits : List Visit}

theorem length_le_depth (h : Edited rule ancestors ns visits out) :
    ∀ v ∈ visits, ancestors.length ≤ v.depth := by
  induction h with
  | nil => exact fun v hv => absurd hv List.not_mem_nil
  | removed _ _ ih => exact List.forall_mem_cons.mpr ⟨Nat.le_refl _, ih⟩
  | skipped _ _ ih => exact List.forall_mem_cons.mpr ⟨Nat.le_refl _, ih⟩
  | opened _ _ _ ihinner ihrest =>
    refine List.forall_mem_cons.mpr ⟨Nat.le_refl _, List.forall_mem_append.mpr ⟨fun v hv => ?_, ihrest⟩⟩
    have := ihinner v hv
    rw [List.length_append] at this
    omega

theorem takeWhile_depth (h : Edited rule ancestors ns visits out) {d : Nat} (hd : ancestors.length ≤ d) :
    visits.takeWhile (fun w => d < w.depth) = [] := by
  have hfirst : ∀ (n : Node) (later : List Visit),
      (⟨ancestors, n⟩ :: later : List Visit).takeWhile (fun w => d < w.depth) = [] := by
    intro n later
    refine List.takeWhile_cons_of_neg ?_
    rw [Visit.depth_mk, decide_eq_true_eq]
    exact Nat.not_lt.mpr hd
  cases h with
  | nil => rfl
  | removed => exact hfirst _ _
  | skipped => exact hfirst _ _
  | opened => exact hfirst _ _

theorem lt_depth {m : Node} {cs : List Node} (h : Edited rule (ancestors ++ [m]) ns visits cs) :
    ∀ v ∈ visits, ancestors.length < v.depth := by
  intro v hv
  have := h.length_le_depth v hv
  rwa [List.length_append, List.length_singleton] at this

/-- The visits on the level of the siblings are of these, in order. -/
theorem filter_depth (h : Edited rule ancestors ns visits out) :
    visits.filter (fun w => w.depth = ancestors.length) = ns.map fun n => ⟨ancestors, n⟩ := by
  induction h with
  | nil => rfl
  | removed _ _ ih => rw [List.filter_cons_of_pos (by simp), ih, List.map_cons]
  | skipped _ _ ih => rw [List.filter_cons_of_pos (by simp), ih, List.map_cons]
  | @opened ancestors rest out cs n m inner visits _ hinner _ _ ih =>
    have hdeeper : inner.filter (fun w => w.depth = ancestors.length) = [] := by
      rw [List.filter_eq_nil_iff]
      intro w hw
      rw [decide_eq_true_eq]
      exact Nat.ne_of_gt (hinner.lt_depth w hw)
    rw [List.filter_cons_of_pos (by simp), List.filter_append, hdeeper, List.nil_append, ih, List.map_cons]

/-- A visit of one of the siblings is followed by what is below it and the visits of the others. -/
theorem visitsChildren (h : Edited rule ancestors ns visits out) : VisitsChildren rule visits := by
  induction h with
  | nil => exact fun v later hv => absurd (List.suffix_nil.mp hv) (List.cons_ne_nil v later)
  | removed h hrest ih =>
    refine ih.cons ?_
    rw [Visit.depth_mk, hrest.takeWhile_depth (Nat.le_refl _), below_of_not_opened (by rw [h]; rfl)]
    rfl
  | skipped h hrest ih =>
    refine ih.cons ?_
    rw [Visit.depth_mk, hrest.takeWhile_depth (Nat.le_refl _), below_of_not_opened (by rw [h]; rfl)]
    rfl
  | @opened ancestors rest out cs n m inner visits h hinner hrest ihinner ihrest =>
    have hdeeper := hinner.lt_depth
    refine (ihinner.append ihrest fun v hv => ?_).cons ?_
    · exact hrest.takeWhile_depth (Nat.le_of_lt (hdeeper v hv))
    · have hlevel := hinner.filter_depth
      rw [List.length_append, List.length_singleton] at hlevel
      rw [Visit.depth_mk, List.takeWhile_append_of_pos fun w hw => decide_eq_true (hdeeper w hw),
        hrest.takeWhile_depth (Nat.le_refl _), List.append_nil, hlevel, below_of_opened h]

end Edited

/-! ### The result -/

/-- **A walk makes exactly the visitor's edits.**  Let a visitor answer by a rule and leave the edits to the walk,
and let the rule replace nodes only finitely often.  To remove the root is an error.  Otherwise there is one
edited tree, and the walk gives it as soon as enough visits are allowed and never another one; the visits are
made in the order of the edits, and each node that is gone into has every child visited once, in order. -/
theorem walk_makes_edits {σ : Type} {visit : Visitor σ} {rule : Rule} (hobeys : Obeys visit rule) {tree : Node}
    (hfinite : ReplacesFinitely rule tree) (s : σ) :
    (rule.answer ⟨[], tree⟩ = .remove → ∀ bound : Nat, tree.walk visit bound s =
      some ((visit s [] tree).1, .error ⟨.rootRemoved, tree.position⟩)) ∧
    (rule.answer ⟨[], tree⟩ ≠ .remove → ∃ (visits : List Visit) (edited : Node),
      Edited rule [] [tree] visits [edited] ∧
      (∀ visits' out, Edited rule [] [tree] visits' out → visits' = visits ∧ out = [edited]) ∧
      (∀ bound : Nat, visits.length ≤ bound + 1 →
        tree.walk visit bound s = some (stateAfter visit s visits, .ok edited)) ∧
      (∀ (bound : Nat) (r : σ × Except StructureError Node), tree.walk visit bound s = some r →
        r = (stateAfter visit s visits, .ok edited)) ∧
      (∀ k : Nat, firstVisits rule k [⟨[], tree⟩] = visits.take k) ∧
      VisitsChildren rule visits) := by
  constructor
  · intro hremove bound
    have hverdict : (visit s [] tree).2 = _ := hobeys s ⟨[], tree⟩
    rw [hremove] at hverdict
    exact walk_remove bound (congrArg Verdict.move hverdict)
  · intro hroot
    obtain ⟨visits, out, h⟩ := replacesFinitely_iff.mp hfinite
    obtain ⟨edited, rfl⟩ := h.exists_tree hroot
    have hrun : ∀ bound : Nat, visits.length ≤ bound + 1 →
        tree.walk visit bound s = some (stateAfter visit s visits, .ok edited) :=
      fun bound hbound => walk_of_edited hobeys h hbound s
    refine ⟨visits, edited, h, fun visits' out => h.unique, hrun, fun bound r hr => ?_, firstVisits_tree h,
      h.visitsChildren⟩
    have hlarge := hrun (max bound visits.length) (by omega)
    rw [walk_mono (Nat.le_max_left bound visits.length) hr] at hlarge
    exact Option.some.inj hlarge

/-- A rule that leaves out line breaks, puts strong text in place of emphasis and does not look into quotations. -/
def tidyRule : Rule := fun _ n =>
  if n.kind = "break" then .remove
  else if n.kind = "blockquote" then .skip
  else if n.kind = "emphasis" then
    .replace (.branch { kind := "strong" } [.leaf { kind := "break" }, .ofText "b" none])
  else .keep

/-- A paragraph with two line breaks in a row and emphasis, and a quotation. -/
def untidy : Node :=
  .ofChildren
    [.branch { kind := "paragraph" }
      [.leaf { kind := "break" }, .leaf { kind := "break" },
       .branch { kind := "emphasis" } [.ofText "a" none], .ofText "c" none],
     .branch { kind := "blockquote" } [.leaf { kind := "break" }]]

/-- The paragraph without line breaks, with strong text for the emphasis, and the same quotation. -/
def tidied : Node :=
  .ofChildren
    [.branch { kind := "paragraph" }
      [.branch { kind := "strong" } [.ofText "b" none], .ofText "c" none],
     .branch { kind := "blockquote" } [.leaf { kind := "break" }]]

theorem edited_untidy : ∃ visits : List Visit,
    visits.map (fun v => (v.depth, v.node.kind)) =
      [(0, "root"), (1, "paragraph"), (2, "break"), (2, "break"), (2, "emphasis"), (3, "break"), (3, "text"),
       (2, "text"), (1, "blockquote")] ∧
    Edited tidyRule [] [untidy] visits [tidied] := by
  have h : Edited tidyRule [] [untidy] _ [_] :=
    .opened rfl
      (.opened rfl
        (.removed rfl (.removed rfl
          (.opened rfl (.removed rfl (.opened rfl .nil .nil)) (.opened rfl .nil .nil))))
        (.skipped rfl .nil))
      .nil
  exact ⟨_, rfl, h⟩

/-- The walk of a tree with nodes to remove next to each other, one to remove inside of a replacement and one to
skip. -/
theorem walk_makes_edits_untidy :
    Obeys (recorder tidyRule) tidyRule ∧ ReplacesFinitely tidyRule untidy ∧
    ∃ visits : List Visit,
      visits.map (fun v => (v.depth, v.node.kind)) =
        [(0, "root"), (1, "paragraph"), (2, "break"), (2, "break"), (2, "emphasis"), (3, "break"),
         (3, "text"), (2, "text"), (1, "blockquote")] ∧
      untidy.walk (recorder tidyRule) 8 [] = some (visits, .ok tidied) := by
  obtain ⟨visits, hkinds, h⟩ := edited_untidy
  have hfinite : ReplacesFinitely tidyRule untidy := replacesFinitely_iff.mpr ⟨visits, [tidied], h⟩
  have hroot : tidyRule.answer ⟨[], untidy⟩ ≠ .remove := fun hremove => Answer.noConfusion hremove
  obtain ⟨visits', edited, -, hunique, hwalk, -⟩ :=
    (walk_makes_edits (obeys_recorder tidyRule) hfinite []).2 hroot
  obtain ⟨rfl, hout⟩ := hunique visits [tidied] h
  cases hout
  have hlength : visits.length = 9 := (List.length_map ..).symm.trans (congrArg List.length hkinds)
  have hrun := hwalk 8 (Nat.le_of_eq hlength)
  rw [stateAfter_recorder, List.nil_append] at hrun
  exact ⟨obeys_recorder tidyRule, hfinite, visits, hkinds, hrun⟩

end Mdx.Walk
