import Mdx.Node.Walk

/-!
# Walks and their edits

A visitor that leaves all edits to the walk gives an `Answer` to each visit; here it decides from the node and
the kinds of its ancestors (`Rule`).  What the walk has to do is said without a list that is edited while it is
read (`Edited`): of siblings each is visited once, in order, and leaves nothing, itself or another node in its
place, whose children are edited in turn.

The walk makes these edits as soon as it is allowed as many visits as they take (`siblings_of_edited`,
`walk_of_edited`), and with more visits allowed it gives the same result (`walk_mono`).  So there is only one
result to ask for (`Edited.unique`).
-/

namespace Mdx

/-- The node with other children; a leaf has none. -/
def Node.withChildren (cs : List Node) : Node → Node
  | .leaf h => .leaf h
  | .branch h _ => .branch h cs

namespace Walk

variable {σ : Type}

/-! ### The walk, one visit at a time -/

theorem siblings_nil (visit : Visitor σ) (bound : Nat) (s : σ) (ancestors done : List Node) :
    siblings visit bound s ancestors done [] = some (s, done.reverse) := by
  rw [siblings]

section Step

variable {visit : Visitor σ} {s : σ} {ancestors : List Node} {n : Node} (bound : Nat) (done rest : List Node)

theorem siblings_remove (h : (visit s ancestors n).2.move = .remove) :
    siblings visit (bound + 1) s ancestors done (n :: rest) =
      siblings visit bound (visit s ancestors n).1 ancestors done
        (rest ++ (visit s ancestors n).2.added) := by
  rw [siblings]
  generalize visit s ancestors n = r at h ⊢
  obtain ⟨s', move, m, added⟩ := r
  obtain rfl : move = .remove := h
  rfl

theorem siblings_skip (h : (visit s ancestors n).2.move = .skip) :
    siblings visit (bound + 1) s ancestors done (n :: rest) =
      siblings visit bound (visit s ancestors n).1 ancestors ((visit s ancestors n).2.node :: done)
        (rest ++ (visit s ancestors n).2.added) := by
  rw [siblings]
  generalize visit s ancestors n = r at h ⊢
  obtain ⟨s', move, m, added⟩ := r
  obtain rfl : move = .skip := h
  rfl

theorem siblings_descend (h : (visit s ancestors n).2.move = .descend) :
    siblings visit (bound + 1) s ancestors done (n :: rest) =
      (siblings visit bound (visit s ancestors n).1 (ancestors ++ [(visit s ancestors n).2.node]) []
        (visit s ancestors n).2.node.children).bind fun r =>
          siblings visit bound r.1 ancestors ((visit s ancestors n).2.node.withChildren r.2 :: done)
            (rest ++ (visit s ancestors n).2.added) := by
  rw [siblings]
  generalize visit s ancestors n = r at h ⊢
  obtain ⟨s', move, m, added⟩ := r
  obtain rfl : move = .descend := h
  cases m with
  | leaf head =>
    rw [Node.children, siblings_nil]
    rfl
  | branch head cs =>
    dsimp only [Node.children]
    cases siblings visit bound s' (ancestors ++ [.branch head cs]) [] cs <;> rfl

end Step

/-- **With more visits allowed the result is the same.** -/
theorem siblings_mono {visit : Visitor σ} {bound larger : Nat} (hle : bound ≤ larger) {s : σ}
    {ancestors done pending : List Node} {r : σ × List Node}
    (h : siblings visit bound s ancestors done pending = some r) :
    siblings visit larger s ancestors done pending = some r := by
  induction bound generalizing larger s ancestors done pending r with
  | zero =>
    cases pending with
    | nil => rwa [siblings_nil] at h ⊢
    | cons n rest => rw [siblings] at h; cases h
  | succ bound ih =>
    obtain ⟨larger, rfl⟩ := Nat.exists_eq_add_of_le' (Nat.le_trans (Nat.le_add_left 1 bound) hle)
    have hle : bound ≤ larger := Nat.le_of_succ_le_succ hle
    cases pending with
    | nil => rwa [siblings_nil] at h ⊢
    | cons n rest =>
      cases hmove : (visit s ancestors n).2.move with
      | remove =>
        rw [siblings_remove _ _ _ hmove] at h ⊢
        exact ih hle h
      | skip =>
        rw [siblings_skip _ _ _ hmove] at h ⊢
        exact ih hle h
      | descend =>
        rw [siblings_descend _ _ _ hmove] at h ⊢
        obtain ⟨inner, hinner, hrest⟩ := Option.bind_eq_some_iff.mp h
        exact Option.bind_eq_some_iff.mpr ⟨inner, ih hle hinner, ih hle hrest⟩

/-! ### Visitors that leave the edits to the walk -/

/-- An answer to a visit. -/
inductive Answer where
  /-- The node stays, and its children are visited. -/
  | keep
  /-- The node stays as it is. -/
  | skip
  /-- The node goes. -/
  | remove
  /-- Another node comes in its place, and the children of that one are visited. -/
  | replace (m : Node)

/-- A rule by which a visitor answers, from the kinds of the ancestors and the node. -/
abbrev Rule := List String → Node → Answer

/-- A visit: the ancestors that the visitor is shown, from the root down, and the node. -/
structure Visit where
  ancestors : List Node
  node : Node

namespace Answer

/-- What an answer asks of the walk. -/
def verdict (n : Node) : Answer → Verdict
  | keep => { move := .descend, node := n }
  | skip => { move := .skip, node := n }
  | remove => { move := .remove, node := n }
  | replace m => { move := .descend, node := m }

/-- The node whose children are visited after the answer. -/
def opened? (n : Node) : Answer → Option Node
  | keep => some n
  | skip => none
  | remove => none
  | replace m => some m

theorem verdict_of_opened {n m : Node} {answer : Answer} (h : answer.opened? n = some m) :
    answer.verdict n = { move := .descend, node := m } := by
  cases answer <;> cases h <;> rfl

end Answer

/-- The answer to a visit. -/
def Rule.answer (rule : Rule) (v : Visit) : Answer :=
  rule (v.ancestors.map Node.kind) v.node

/-- The visitor answers by the rule and makes no edits of its own; it may keep a record in its state. -/
def Obeys (visit : Visitor σ) (rule : Rule) : Prop :=
  ∀ (s : σ) (v : Visit), (visit s v.ancestors v.node).2 = (rule.answer v).verdict v.node

/-- The state of a visitor after visits. -/
def stateAfter (visit : Visitor σ) (s : σ) (visits : List Visit) : σ :=
  visits.foldl (fun s v => (visit s v.ancestors v.node).1) s

/-- **The edits that a rule asks for**, of siblings below these ancestors: the visits that are made, and the
siblings that are left.  A node to be removed is left out, one to be skipped is left as it is, and of any other
the children are edited, or those of the node that replaces it. -/
inductive Edited (rule : Rule) : List Node → List Node → List Visit → List Node → Prop
  | nil {ancestors : List Node} : Edited rule ancestors [] [] []
  | removed {ancestors rest out : List Node} {n : Node} {visits : List Visit}
      (h : rule.answer ⟨ancestors, n⟩ = .remove) (hrest : Edited rule ancestors rest visits out) :
      Edited rule ancestors (n :: rest) (⟨ancestors, n⟩ :: visits) out
  | skipped {ancestors rest out : List Node} {n : Node} {visits : List Visit}
      (h : rule.answer ⟨ancestors, n⟩ = .skip) (hrest : Edited rule ancestors rest visits out) :
      Edited rule ancestors (n :: rest) (⟨ancestors, n⟩ :: visits) (n :: out)
  | opened {ancestors rest out cs : List Node} {n m : Node} {inner visits : List Visit}
      (h : (rule.answer ⟨ancestors, n⟩).opened? n = some m)
      (hinner : Edited rule (ancestors ++ [m]) m.children inner cs)
      (hrest : Edited rule ancestors rest visits out) :
      Edited rule ancestors (n :: rest) (⟨ancestors, n⟩ :: (inner ++ visits)) (m.withChildren cs :: out)

namespace Edited

variable {rule : Rule} {ancestors xs ys out out' : List Node} {visits visits' : List Visit}

theorem append (hx : Edited rule ancestors xs visits out) (hy : Edited rule ancestors ys visits' out') :
    Edited rule ancestors (xs ++ ys) (visits ++ visits') (out ++ out') := by
  induction hx with
  | nil => exact hy
  | removed h _ ih => exact .removed h (ih hy)
  | skipped h _ ih => exact .skipped h (ih hy)
  | opened h hinner _ _ ih =>
    have := opened h hinner (ih hy)
    rwa [← List.append_assoc] at this

end Edited

section Run

variable {visit : Visitor σ} {rule : Rule} (hobeys : Obeys visit rule)

include hobeys

section Step

variable {ancestors : List Node} {n : Node} (bound : Nat) (s : σ) (done rest : List Node)

theorem siblings_of_remove (h : rule.answer ⟨ancestors, n⟩ = .remove) :
    siblings visit (bound + 1) s ancestors done (n :: rest) =
      siblings visit bound (visit s ancestors n).1 ancestors done rest := by
  have hverdict : (visit s ancestors n).2 = _ := hobeys s ⟨ancestors, n⟩
  rw [h] at hverdict
  rw [siblings_remove _ _ _ (congrArg Verdict.move hverdict), hverdict]
  exact congrArg _ (List.append_nil rest)

theorem siblings_of_skip (h : rule.answer ⟨ancestors, n⟩ = .skip) :
    siblings visit (bound + 1) s ancestors done (n :: rest) =
      siblings visit bound (visit s ancestors n).1 ancestors (n :: done) rest := by
  have hverdict : (visit s ancestors n).2 = _ := hobeys s ⟨ancestors, n⟩
  rw [h] at hverdict
  rw [siblings_skip _ _ _ (congrArg Verdict.move hverdict), hverdict]
  exact congrArg _ (List.append_nil rest)

theorem siblings_of_opened {m : Node} (h : (rule.answer ⟨ancestors, n⟩).opened? n = some m) :
    siblings visit (bound + 1) s ancestors done (n :: rest) =
      (siblings visit bound (visit s ancestors n).1 (ancestors ++ [m]) [] m.children).bind fun r =>
        siblings visit bound r.1 ancestors (m.withChildren r.2 :: done) rest := by
  have hverdict : (visit s ancestors n).2 = _ := hobeys s ⟨ancestors, n⟩
  rw [Answer.verdict_of_opened h] at hverdict
  rw [siblings_descend _ _ _ (congrArg Verdict.move hverdict), hverdict]
  dsimp only
  rw [List.append_nil]

end Step

/-- **The walk makes the edits**, if it is allowed as many visits as they take. -/
theorem siblings_of_edited {ancestors pending out : List Node} {visits : List Visit}
    (h : Edited rule ancestors pending visits out) {bound : Nat} (hbound : visits.length ≤ bound) (s : σ)
    (done : List Node) :
    siblings visit bound s ancestors done pending =
      some (stateAfter visit s visits, done.reverse ++ out) := by
  induction h generalizing bound s done with
  | nil =>
    rw [siblings_nil, List.append_nil]
    rfl
  | removed h _ ih =>
    obtain ⟨bound, rfl⟩ := Nat.exists_eq_add_of_le' (Nat.le_trans (Nat.le_add_left 1 _) hbound)
    rw [siblings_of_remove hobeys _ _ _ _ h, ih (Nat.le_of_succ_le_succ hbound)]
    rfl
  | skipped h _ ih =>
    obtain ⟨bound, rfl⟩ := Nat.exists_eq_add_of_le' (Nat.le_trans (Nat.le_add_left 1 _) hbound)
    rw [siblings_of_skip hobeys _ _ _ _ h, ih (Nat.le_of_succ_le_succ hbound), List.reverse_cons,
      List.append_assoc]
    rfl
  | @opened ancestors rest out cs n m inner visits h _ _ ihinner ihrest =>
    obtain ⟨bound, rfl⟩ := Nat.exists_eq_add_of_le' (Nat.le_trans (Nat.le_add_left 1 _) hbound)
    have hlength : inner.length + visits.length ≤ bound := by
      rw [← List.length_append]
      exact Nat.le_of_succ_le_succ hbound
    rw [siblings_of_opened hobeys _ _ _ _ h, ihinner (by omega), Option.bind_some, ihrest (by omega),
      List.reverse_cons, List.append_assoc]
    refine congrArg some (Prod.ext ?_ rfl)
    simp only [stateAfter, List.foldl_cons, List.foldl_append]

end Run

/-! ### One result -/

/-- A visitor that answers by a rule and records its visits. -/
def recorder (rule : Rule) : Visitor (List Visit) := fun log ancestors n =>
  (log ++ [⟨ancestors, n⟩], (rule.answer ⟨ancestors, n⟩).verdict n)

theorem obeys_recorder (rule : Rule) : Obeys (recorder rule) rule := fun _ _ => rfl

theorem stateAfter_recorder (rule : Rule) (log visits : List Visit) :
    stateAfter (recorder rule) log visits = log ++ visits := by
  induction visits generalizing log with
  | nil => exact (List.append_nil log).symm
  | cons v visits ih =>
    refine (ih (log ++ [v])).trans ?_
    rw [List.append_assoc, List.singleton_append]

/-- **A rule asks for one list of visits and one result**, those of a walk that records its visits. -/
theorem Edited.unique {rule : Rule} {ancestors ns out out' : List Node} {visits visits' : List Visit}
    (h : Edited rule ancestors ns visits out) (h' : Edited rule ancestors ns visits' out') :
    visits' = visits ∧ out' = out := by
  have hrun := siblings_of_edited (obeys_recorder rule) h (Nat.le_max_left _ visits'.length) [] []
  rw [siblings_of_edited (obeys_recorder rule) h' (Nat.le_max_right visits.length _) [] [],
    stateAfter_recorder, stateAfter_recorder] at hrun
  exact Prod.mk.inj (Option.some.inj hrun)

/-! ### Walks of trees -/

section Tree

variable {visit : Visitor σ} {s : σ} {tree : Node} (bound : Nat)

theorem walk_remove (h : (visit s [] tree).2.move = .remove) :
    tree.walk visit bound s =
      some ((visit s [] tree).1, .error ⟨.rootRemoved, tree.position⟩) := by
  rw [Node.walk]
  generalize visit s [] tree = r at h ⊢
  obtain ⟨s', move, m, added⟩ := r
  obtain rfl : move = .remove := h
  rfl

theorem walk_skip (h : (visit s [] tree).2.move = .skip) :
    tree.walk visit bound s = some ((visit s [] tree).1, .ok (visit s [] tree).2.node) := by
  rw [Node.walk]
  generalize visit s [] tree = r at h ⊢
  obtain ⟨s', move, m, added⟩ := r
  obtain rfl : move = .skip := h
  rfl

theorem walk_descend (h : (visit s [] tree).2.move = .descend) :
    tree.walk visit bound s =
      (siblings visit bound (visit s [] tree).1 [(visit s [] tree).2.node] []
        (visit s [] tree).2.node.children).map fun r =>
          (r.1, .ok ((visit s [] tree).2.node.withChildren r.2)) := by
  rw [Node.walk]
  generalize visit s [] tree = r at h ⊢
  obtain ⟨s', move, m, added⟩ := r
  obtain rfl : move = .descend := h
  cases m with
  | leaf head =>
    rw [Node.children, siblings_nil]
    rfl
  | branch head cs => rfl

end Tree

theorem walk_mono {visit : Visitor σ} {bound larger : Nat} (hle : bound ≤ larger) {s : σ} {tree : Node}
    {r : σ × Except StructureError Node} (h : tree.walk visit bound s = some r) :
    tree.walk visit larger s = some r := by
  cases hmove : (visit s [] tree).2.move with
  | remove => rwa [walk_remove _ hmove] at h ⊢
  | skip => rwa [walk_skip _ hmove] at h ⊢
  | descend =>
    rw [walk_descend _ hmove] at h ⊢
    obtain ⟨inner, hinner, rfl⟩ := Option.map_eq_some_iff.mp h
    rw [siblings_mono hle hinner, Option.map_some]

/-- A walk of a tree is one of the tree as the only sibling, if its visit adds none. -/
theorem walk_of_siblings {visit : Visitor σ} {bound : Nat} {s s' : σ} {tree m : Node}
    (h : siblings visit (bound + 1) s [] [] [tree] = some (s', [m]))
    (hadded : (visit s [] tree).2.added = []) : tree.walk visit bound s = some (s', .ok m) := by
  cases hmove : (visit s [] tree).2.move with
  | remove =>
    rw [siblings_remove _ _ _ hmove, hadded, List.append_nil, siblings_nil] at h
    cases h
  | skip =>
    rw [siblings_skip _ _ _ hmove, hadded, List.append_nil, siblings_nil] at h
    rw [walk_skip _ hmove]
    cases h
    rfl
  | descend =>
    rw [siblings_descend _ _ _ hmove, hadded] at h
    obtain ⟨inner, hinner, hrest⟩ := Option.bind_eq_some_iff.mp h
    rw [List.append_nil, siblings_nil] at hrest
    rw [walk_descend _ hmove]
    rw [List.nil_append] at hinner
    rw [hinner]
    cases hrest
    rfl

theorem walk_of_edited {visit : Visitor σ} {rule : Rule} (hobeys : Obeys visit rule) {tree out : Node}
    {visits : List Visit} (h : Edited rule [] [tree] visits [out]) {bound : Nat}
    (hbound : visits.length ≤ bound + 1) (s : σ) :
    tree.walk visit bound s = some (stateAfter visit s visits, .ok out) := by
  have hverdict : (visit s [] tree).2 = _ := hobeys s ⟨[], tree⟩
  cases h with
  | removed _ hrest => cases hrest
  | skipped h hrest =>
    cases hrest
    rw [h] at hverdict
    rw [walk_skip _ (congrArg Verdict.move hverdict), hverdict]
    rfl
  | @opened _ _ _ cs _ m inner _ h hinner hrest =>
    cases hrest
    have hinner' : inner.length ≤ bound := by
      rw [List.append_nil] at hbound
      exact Nat.le_of_succ_le_succ hbound
    rw [Answer.verdict_of_opened h] at hverdict
    rw [List.nil_append] at hinner
    rw [walk_descend _ (congrArg Verdict.move hverdict), hverdict, List.append_nil]
    dsimp only
    rw [siblings_of_edited hobeys hinner hinner', Option.map_some]
    rfl

theorem Edited.exists_tree {rule : Rule} {tree : Node} {visits : List Visit} {out : List Node}
    (h : Edited rule [] [tree] visits out) (hroot : rule.answer ⟨[], tree⟩ ≠ .remove) :
    ∃ edited : Node, out = [edited] := by
  cases h with
  | removed h => exact absurd h hroot
  | skipped _ hrest => cases hrest; exact ⟨_, rfl⟩
  | opened _ _ hrest => cases hrest; exact ⟨_, rfl⟩

end Walk

end Mdx
