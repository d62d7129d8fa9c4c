import Mdx.Proofs.Node.Walk

/-!
# Walks of trees that grow

A visitor may put another node in the place of the one that it visits, and it may append nodes to the children
of that node or of its parent, while these are being visited.  So neither the tree nor the list of siblings
bounds the walk.  It ends all the same if nodes are put in only finitely often, and the number of visits is at
most the size of the tree and of all the trees put in (`bounded_editing_ends`).

The course of a walk is seen without recursion here: `Level` holds the siblings that are still pending on one
level of the tree, and a visit takes the first node of the innermost level that has one (`next?`).  What is
pending is the measure.  A visit takes one node from it and puts back no more than was below that node and
what the visitor puts in (`size_following`).  By this alone the visits made never outnumber the nodes
(`length_firstDeeds_le`); and between two visits that put nodes in, the measure goes down, so with finitely
many of these the course ends (`exists_ends`).  The walk makes just the visits of the course
(`siblings_of_course`).
-/

namespace Mdx

/-- The node with more children at the end. -/
def Node.append (more : List Node) : Node → Node
  | .leaf h => if more.isEmpty then .leaf h else .branch h more
  | .branch h cs => .branch h (cs ++ more)

theorem Node.size_append (more : List Node) (n : Node) :
    (n.append more).size = n.size + Node.sizeOfList more := by
  cases n with
  | leaf h =>
    cases more with
    | nil => rfl
    | cons c more => rfl
  | branch h cs => rw [append, size, size, sizeOfList_append, Nat.add_assoc]

namespace Walk

variable {σ τ : Type}

/-! ### Visitors that put nodes in -/

/-- What a visitor does at a visit: its answer, and the nodes that it appends to the children of the visited
node and to those of its parent. -/
structure Deed where
  answer : Answer
  inside : List Node := []
  beside : List Node := []

/-- A node that comes in the place of another. -/
def Answer.inserted : Answer → List Node
  | replace m => [m]
  | _ => []

namespace Deed

/-- The trees that are put in. -/
def inserted (d : Deed) : List Node :=
  d.answer.inserted ++ d.inside ++ d.beside

/-- Whether a tree is put in. -/
def edits (d : Deed) : Bool :=
  !d.inserted.isEmpty

/-- What a deed asks of the walk. -/
def verdict (n : Node) (d : Deed) : Verdict :=
  { d.answer.verdict (n.append d.inside) with added := d.beside }

/-- The node whose children are visited next. -/
def opened? (n : Node) (d : Deed) : Option Node :=
  d.answer.opened? (n.append d.inside)

end Deed

/-- A visitor by its deeds. -/
abbrev Editor (σ : Type) := σ → List Node → Node → σ × Deed

namespace Editor

/-- What an editor does at a visit. The root has no parent, so nothing is appended beside it. -/
def act (editor : Editor σ) (s : σ) (ancestors : List Node) (n : Node) : σ × Deed :=
  match editor s ancestors n with
  | (s, d) => (s, if ancestors.isEmpty then { d with beside := [] } else d)

/-- The editor as a visitor. -/
def visitor (editor : Editor σ) : Visitor σ := fun s ancestors n =>
  ((editor.act s ancestors n).1, (editor.act s ancestors n).2.verdict n)

/-- The editor as a visitor that keeps a record of its deeds. -/
def recorder (editor : Editor σ) : Visitor (σ × List Deed) := fun s ancestors n =>
  (((editor.act s.1 ancestors n).1, s.2 ++ [(editor.act s.1 ancestors n).2]),
    (editor.act s.1 ancestors n).2.verdict n)

end Editor

/-! ### The course of a walk -/

/-- The siblings on one level of a tree that are still to be visited, and their ancestors. -/
structure Level where
  ancestors : List Node
  pending : List Node

/-- The next visit, with the siblings after the visited node and the levels above. -/
structure Next where
  ancestors : List Node
  node : Node
  rest : List Node
  above : List Level

/-- The next visit, if there is one: that of the first node on the innermost level that has one. -/
def next? : List Level → Option Next
  | [] => none
  | ⟨_, []⟩ :: levels => next? levels
  | ⟨ancestors, n :: rest⟩ :: levels => some ⟨ancestors, n, rest, levels⟩

/-- The level below a visited node. -/
def Deed.level (d : Deed) (ancestors : List Node) (n : Node) : List Level :=
  ((d.opened? n).map fun m => ⟨ancestors ++ [m], m.children⟩).toList

/-- The levels after a visit. -/
def Next.following (v : Next) (d : Deed) : List Level :=
  d.level v.ancestors v.node ++ ⟨v.ancestors, v.rest ++ d.beside⟩ :: v.above

/-- The deeds at the first visits of a walk that has these levels before it. -/
def firstDeeds (editor : Editor σ) : (k : Nat) → σ → List Level → List Deed
  | 0, _, _ => []
  | k + 1, s, levels =>
      match next? levels with
      | none => []
      | some v =>
          match editor.act s v.ancestors v.node with
          | (s, d) => d :: firstDeeds editor k s (v.following d)

/-- The deeds at the first visits of the walk of a tree. -/
def course (editor : Editor σ) (s : σ) (tree : Node) (k : Nat) : List Deed :=
  firstDeeds editor k s [⟨[], [tree]⟩]

/-- The editor puts nodes in only finitely often: however far the walk of the tree goes, no more than some
number of its visits do so. -/
def EditsFinitely (editor : Editor σ) (s : σ) (tree : Node) : Prop :=
  ∃ most : Nat, ∀ k : Nat, (course editor s tree k).countP Deed.edits ≤ most

section Course

variable {editor : Editor σ} {s : σ} {levels : List Level}

theorem firstDeeds_none (h : next? levels = none) (k : Nat) : firstDeeds editor k s levels = [] := by
  cases k with
  | zero => rfl
  | succ k => rw [firstDeeds, h]

theorem firstDeeds_some {v : Next} (h : next? levels = some v) (k : Nat) :
    firstDeeds editor (k + 1) s levels =
      (editor.act s v.ancestors v.node).2 ::
        firstDeeds editor k (editor.act s v.ancestors v.node).1
          (v.following (editor.act s v.ancestors v.node).2) := by
  rw [firstDeeds, h]

theorem firstDeeds_done (ancestors : List Node) (k : Nat) :
    firstDeeds editor k s (⟨ancestors, []⟩ :: levels) = firstDeeds editor k s levels := by
  cases k <;> rfl

end Course

/-! ### What is pending -/

/-- How many nodes are to be visited, unless more are put in. -/
def pendingSize (levels : List Level) : Nat :=
  Node.sizeOfList (levels.flatMap Level.pending)

/-- The size of all the trees put in. -/
def insertedSize (deeds : List Deed) : Nat :=
  Node.sizeOfList (deeds.flatMap Deed.inserted)

theorem insertedSize_cons (d : Deed) (deeds : List Deed) :
    insertedSize (d :: deeds) = Node.sizeOfList d.inserted + insertedSize deeds := by
  rw [insertedSize, List.flatMap_cons, Node.sizeOfList_append, insertedSize]

theorem pendingSize_of_next? {levels : List Level} {v : Next} (h : next? levels = some v) :
    pendingSize levels = v.node.size + Node.sizeOfList v.rest + pendingSize v.above := by
  induction levels with
  | nil => cases h
  | cons level levels ih =>
    obtain ⟨ancestors, pending⟩ := level
    cases pending with
    | nil => exact ih h
    | cons n rest =>
      cases h
      rw [pendingSize, List.flatMap_cons, Node.sizeOfList_append, Node.sizeOfList, pendingSize]

/-- The level below a node has no more nodes than there were below it and are put in. -/
theorem size_level (d : Deed) (ancestors : List Node) (n : Node) :
    pendingSize (d.level ancestors n) + 1 ≤
      n.size + Node.sizeOfList (d.answer.inserted ++ d.inside) := by
  have hone (m : Node) : pendingSize [⟨ancestors ++ [m], m.children⟩] + 1 = m.size := by
    rw [pendingSize, List.flatMap_singleton, Node.size_eq, Nat.add_comm]
  rw [Node.sizeOfList_append]
  cases hanswer : d.answer with
  | keep =>
    rw [Deed.level, Deed.opened?, hanswer]
    refine Nat.le_of_eq ((hone _).trans ?_)
    rw [Node.size_append]
    exact congrArg _ (Nat.zero_add _).symm
  | replace m =>
    rw [Deed.level, Deed.opened?, hanswer]
    refine Nat.le_trans (Nat.le_of_eq (hone m)) ?_
    rw [Answer.inserted, Node.sizeOfList]
    omega
  | skip =>
    rw [Deed.level, Deed.opened?, hanswer, Node.size_eq]
    exact Nat.le_trans (Nat.le_add_right 1 _) (Nat.le_add_right _ _)
  | remove =>
    rw [Deed.level, Deed.opened?, hanswer, Node.size_eq]
    exact Nat.le_trans (Nat.le_add_right 1 _) (Nat.le_add_right _ _)

/-- **A visit takes a node from what is pending**, and puts back no more than is put in. -/
theorem size_following {levels : List Level} {v : Next} (h : next? levels = some v) (d : Deed) :
    pendingSize (v.following d) + 1 ≤ pendingSize levels + Node.sizeOfList d.inserted := by
  have hlevel := size_level d v.ancestors v.node
  have hfollowing : pendingSize (v.following d) = pendingSize (d.level v.ancestors v.node) +
      (Node.sizeOfList v.rest + Node.sizeOfList d.beside + pendingSize v.above) := by
    rw [pendingSize, Next.following, List.flatMap_append, List.flatMap_cons, Node.sizeOfList_append,
      Node.sizeOfList_append, Node.sizeOfList_append]
    rfl
  rw [pendingSize_of_next? h, hfollowing, Deed.inserted, Node.sizeOfList_append]
  omega

/-- **The visits made never outnumber the nodes** that were pending and those that have been put in. -/
theorem length_firstDeeds_le (editor : Editor σ) (k : Nat) (s : σ) (levels : List Level) :
    (firstDeeds editor k s levels).length ≤
      pendingSize levels + insertedSize (firstDeeds editor k s levels) := by
  induction k generalizing s levels with
  | zero => exact Nat.zero_le _
  | succ k ih =>
    cases hnext : next? levels with
    | none =>
      rw [firstDeeds_none hnext]
      exact Nat.zero_le _
    | some v =>
      rw [firstDeeds_some hnext, insertedSize_cons, List.length_cons]
      have hstep := size_following hnext (editor.act s v.ancestors v.node).2
      have hrest := ih (editor.act s v.ancestors v.node).1
        (v.following (editor.act s v.ancestors v.node).2)
      omega

/-! ### The end of the course -/

/-- The course has come to an end after these deeds. -/
def Ends (editor : Editor σ) (s : σ) (levels : List Level) (deeds : List Deed) : Prop :=
  ∀ k : Nat, firstDeeds editor k s levels = deeds.take k

section Ends

variable {editor : Editor σ} {s : σ} {levels : List Level} {deeds : List Deed}

theorem ends_none (h : next? levels = none) : Ends editor s levels [] := by
  intro k
  rw [firstDeeds_none h, List.take_nil]

theorem ends_some {v : Next} (h : next? levels = some v)
    (hrest : Ends editor (editor.act s v.ancestors v.node).1
      (v.following (editor.act s v.ancestors v.node).2) deeds) :
    Ends editor s levels ((editor.act s v.ancestors v.node).2 :: deeds) := by
  intro k
  cases k with
  | zero => rfl
  | succ k => rw [firstDeeds_some h, hrest k, List.take_succ_cons]

theorem Ends.eq_nil (h : Ends editor s levels deeds) (hnone : next? levels = none) : deeds = [] := by
  have hall := h deeds.length
  rw [firstDeeds_none hnone, List.take_length] at hall
  exact hall.symm

/-- The first of the deeds is that of the next visit, and after it the course has the others. -/
theorem Ends.uncons (h : Ends editor s levels deeds) {v : Next} (hnext : next? levels = some v) :
    ∃ later : List Deed, deeds = (editor.act s v.ancestors v.node).2 :: later ∧
      Ends editor (editor.act s v.ancestors v.node).1
        (v.following (editor.act s v.ancestors v.node).2) later := by
  cases deeds with
  | nil =>
    have hone := h 1
    rw [firstDeeds_some hnext] at hone
    cases hone
  | cons d later =>
    have hstep (k : Nat) := h (k + 1)
    simp only [firstDeeds_some hnext, List.take_succ_cons, List.cons.injEq] at hstep
    exact ⟨later, by rw [(hstep 0).1], fun k => (hstep k).2⟩

/-- The deeds outnumber neither the nodes that were pending nor those put in. -/
theorem Ends.length_le (h : Ends editor s levels deeds) :
    deeds.length ≤ pendingSize levels + insertedSize deeds := by
  have hle := length_firstDeeds_le editor deeds.length s levels
  rwa [h, List.take_length] at hle

end Ends

/-- **With finitely many edits the course ends.** -/
theorem exists_ends {editor : Editor σ} (most : Nat) {s : σ} {levels : List Level}
    (h : ∀ k : Nat, (firstDeeds editor k s levels).countP Deed.edits ≤ most) :
    ∃ deeds : List Deed, Ends editor s levels deeds := by
  -- an edit leaves fewer of them, and any other visit fewer pending nodes
  induction most using Nat.strongRecOn generalizing s levels with
  | ind most ihmost =>
    induction hsize : pendingSize levels using Nat.strongRecOn generalizing s levels with
    | ind size ihsize =>
      cases hnext : next? levels with
      | none => exact ⟨[], ends_none hnext⟩
      | some v =>
        have hcount (k : Nat) := h (k + 1)
        simp only [firstDeeds_some hnext] at hcount
        suffices hrest : ∃ later : List Deed, Ends editor (editor.act s v.ancestors v.node).1
            (v.following (editor.act s v.ancestors v.node).2) later by
          obtain ⟨later, hlater⟩ := hrest
          exact ⟨_, ends_some hnext hlater⟩
        cases hedits : (editor.act s v.ancestors v.node).2.edits with
        | true =>
          simp only [List.countP_cons_of_pos hedits] at hcount
          have hpos : 0 < most := Nat.lt_of_lt_of_le (Nat.succ_pos _) (hcount 0)
          exact ihmost (most - 1) (by omega) fun k => Nat.le_sub_one_of_lt (hcount k)
        | false =>
          simp only [List.countP_cons_of_neg (Bool.eq_false_iff.mp hedits)] at hcount
          have hnil : (editor.act s v.ancestors v.node).2.inserted = [] := by
            simpa [Deed.edits] using hedits
          have hstep := size_following hnext (editor.act s v.ancestors v.node).2
          rw [hnil, Node.sizeOfList] at hstep
          exact ihsize _ (by omega) hcount rfl

/-! ### The walk makes the visits of the course -/

theorem Deed.verdict_of_opened {n m : Node} {d : Deed} (h : d.opened? n = some m) :
    d.verdict n = { move := .descend, node := m, added := d.beside } := by
  rw [Deed.verdict, Answer.verdict_of_opened h]

theorem Deed.level_of_opened {n m : Node} {d : Deed} (h : d.opened? n = some m) (ancestors : List Node) :
    d.level ancestors n = [⟨ancestors ++ [m], m.children⟩] := by
  rw [Deed.level, h]
  rfl

theorem Deed.level_of_not_opened {n : Node} {d : Deed} (h : d.opened? n = none) (ancestors : List Node) :
    d.level ancestors n = [] := by
  rw [Deed.level, h]
  rfl

theorem Deed.move_of_not_opened {n : Node} {d : Deed} (h : d.opened? n = none) :
    (d.verdict n).move = .skip ∨ (d.verdict n).move = .remove := by
  rw [Deed.opened?] at h
  rw [Deed.verdict]
  cases hanswer : d.answer <;> rw [hanswer] at h
  · cases h
  · exact .inl rfl
  · exact .inr rfl
  · cases h

/-- **The walk of siblings makes the first visits of the course**, and leaves the others to the levels above. -/
theorem siblings_of_course {editor : Editor σ} {deeds : List Deed} {s : σ} {ancestors pending : List Node}
    {levels : List Level} (h : Ends editor s (⟨ancestors, pending⟩ :: levels) deeds) :
    ∃ (made later : List Deed) (s' : σ) (out : List Node), deeds = made ++ later ∧
      Ends editor s' levels later ∧
      ∀ bound : Nat, made.length ≤ bound → ∀ (log : List Deed) (done : List Node),
        siblings editor.recorder bound (s, log) ancestors done pending =
          some ((s', log ++ made), done.reverse ++ out) := by
  induction hn : deeds.length using Nat.strongRecOn generalizing deeds s ancestors pending levels with
  | ind size ih =>
    subst hn
    cases pending with
    | nil =>
      refine ⟨[], deeds, s, [], rfl, fun k => ?_, fun bound _ log done => ?_⟩
      · rw [← h k, firstDeeds_done]
      · rw [siblings_nil, List.append_nil, List.append_nil]
    | cons n rest =>
      obtain ⟨after, rfl, hafter⟩ := h.uncons rfl
      have hlength : after.length < ((editor.act s ancestors n).2 :: after).length := Nat.lt_succ_self _
      dsimp only [Next.following] at hafter ⊢
      cases hopened : (editor.act s ancestors n).2.opened? n with
      | some m =>
        -- the children of the opened node come first, then the siblings that are left
        rw [Deed.level_of_opened hopened] at hafter
        obtain ⟨inner, others, s₁, cs, rfl, hothers, hinner⟩ := ih _ hlength hafter rfl
        rw [List.length_cons, List.length_append] at hlength
        obtain ⟨made, later, s₂, out, rfl, hlater, hmade⟩ :=
          ih others.length (by rw [List.length_cons, List.length_append]; omega) hothers rfl
        refine ⟨(editor.act s ancestors n).2 :: (inner ++ made), later, s₂, m.withChildren cs :: out, by simp,
          hlater, fun bound hbound log done => ?_⟩
        obtain ⟨bound, rfl⟩ := Nat.exists_eq_add_of_le' (Nat.le_trans (Nat.le_add_left 1 _) hbound)
        rw [List.length_cons, List.length_append] at hbound
        have hverdict : (editor.recorder (s, log) ancestors n).2 = _ := Deed.verdict_of_opened hopened
        rw [siblings_descend _ _ _ (congrArg Verdict.move hverdict), hverdict]
        dsimp only [Editor.recorder]
        rw [hinner bound (by omega), Option.bind_some, hmade bound (by omega)]
        simp
      | none =>
        rw [Deed.level_of_not_opened hopened, List.nil_append] at hafter
        obtain ⟨made, later, s', out, rfl, hlater, hmade⟩ := ih _ hlength hafter rfl
        rcases Deed.move_of_not_opened hopened with hmove | hmove
        · refine ⟨(editor.act s ancestors n).2 :: made, later, s',
            ((editor.act s ancestors n).2.verdict n).node :: out, rfl, hlater, fun bound hbound log done => ?_⟩
          obtain ⟨bound, rfl⟩ := Nat.exists_eq_add_of_le' (Nat.le_trans (Nat.le_add_left 1 _) hbound)
          rw [siblings_skip _ _ _ hmove]
          refine (hmade bound (Nat.le_of_succ_le_succ hbound) _ _).trans ?_
          simp [Editor.recorder]
        · refine ⟨(editor.act s ancestors n).2 :: made, later, s', out, rfl, hlater,
            fun bound hbound log done => ?_⟩
          obtain ⟨bound, rfl⟩ := Nat.exists_eq_add_of_le' (Nat.le_trans (Nat.le_add_left 1 _) hbound)
          rw [siblings_remove _ _ _ hmove]
          refine (hmade bound (Nat.le_of_succ_le_succ hbound) _ _).trans ?_
          simp

/-- The state of a visitor may be seen through a function that the visitor does not look behind. -/
theorem siblings_map {visit : Visitor σ} {visit' : Visitor τ} {f : σ → τ}
    (h : ∀ s ancestors n, visit' (f s) ancestors n = (f (visit s ancestors n).1, (visit s ancestors n).2))
    (bound : Nat) (s : σ) (ancestors done pending : List Node) :
    siblings visit' bound (f s) ancestors done pending =
      (siblings visit bound s ancestors done pending).map fun r => (f r.1, r.2) := by
  induction bound generalizing s ancestors done pending with
  | zero =>
    cases pending with
    | nil => rw [siblings_nil, siblings_nil, Option.map_some]
    | cons n rest => rfl
  | succ bound ih =>
    cases pending with
    | nil => rw [siblings_nil, siblings_nil, Option.map_some]
    | cons n rest =>
      have hvisit := h s ancestors n
      cases hmove : (visit s ancestors n).2.move with
      | remove =>
        rw [siblings_remove _ _ _ hmove, siblings_remove _ _ _ (by rw [hvisit]; exact hmove), hvisit, ih]
      | skip =>
        rw [siblings_skip _ _ _ hmove, siblings_skip _ _ _ (by rw [hvisit]; exact hmove), hvisit, ih]
      | descend =>
        rw [siblings_descend _ _ _ hmove, siblings_descend _ _ _ (by rw [hvisit]; exact hmove), hvisit, ih]
        cases siblings visit bound (visit s ancestors n).1
          (ancestors ++ [(visit s ancestors n).2.node]) [] (visit s ancestors n).2.node.children with
        | none => rfl
        | some r => exact ih _ _ _ _

theorem walk_map {visit : Visitor σ} {visit' : Visitor τ} {f : σ → τ}
    (h : ∀ s ancestors n, visit' (f s) ancestors n = (f (visit s ancestors n).1, (visit s ancestors n).2))
    (bound : Nat) (s : σ) (tree : Node) :
    tree.walk visit' bound (f s) = (tree.walk visit bound s).map fun r => (f r.1, r.2) := by
  have hvisit := h s [] tree
  cases hmove : (visit s [] tree).2.move with
  | remove => rw [walk_remove _ hmove, walk_remove _ (by rw [hvisit]; exact hmove), hvisit, Option.map_some]
  | skip => rw [walk_skip _ hmove, walk_skip _ (by rw [hvisit]; exact hmove), hvisit, Option.map_some]
  | descend =>
    rw [walk_descend _ hmove, walk_descend _ (by rw [hvisit]; exact hmove), hvisit, siblings_map h,
      Option.map_map, Option.map_map]
    rfl

theorem walk_of_course {editor : Editor σ} {deeds : List Deed} {s : σ} {tree : Node}
    (h : Ends editor s [⟨[], [tree]⟩] deeds) :
    ∃ (s' : σ) (result : Except StructureError Node), ∀ bound : Nat, deeds.length ≤ bound + 1 →
      tree.walk editor.recorder bound (s, []) = some ((s', deeds), result) := by
  obtain ⟨after, rfl, hafter⟩ := h.uncons rfl
  have hbeside : (editor.act s [] tree).2.beside = [] := rfl
  dsimp only [Next.following] at hafter ⊢
  rw [hbeside] at hafter
  cases hopened : (editor.act s [] tree).2.opened? tree with
  | some m =>
    rw [Deed.level_of_opened hopened] at hafter
    obtain ⟨made, later, s', cs, rfl, hlater, hmade⟩ := siblings_of_course hafter
    obtain rfl : later = [] := hlater.eq_nil rfl
    refine ⟨s', .ok (m.withChildren cs), fun bound hbound => ?_⟩
    rw [List.append_nil] at hbound ⊢
    have hverdict : (editor.recorder (s, []) [] tree).2 = _ := Deed.verdict_of_opened hopened
    rw [walk_descend _ (congrArg Verdict.move hverdict), hverdict]
    dsimp only [Editor.recorder]
    have hinner := hmade bound (Nat.le_of_succ_le_succ hbound) [(editor.act s [] tree).2] []
    rw [List.nil_append] at hinner ⊢
    rw [hinner]
    rfl
  | none =>
    rw [Deed.level_of_not_opened hopened] at hafter
    obtain rfl : after = [] := hafter.eq_nil rfl
    rcases Deed.move_of_not_opened hopened with hmove | hmove
    · exact ⟨_, _, fun bound _ => walk_skip bound hmove⟩
    · exact ⟨_, _, fun bound _ => walk_remove bound hmove⟩

/-! ### The result -/

/-- **A walk whose edits come to an end comes to an end.**  Let a visitor put other nodes in the place of visited
ones and append nodes to the children of the visited node or of its parent, but do so only finitely often on the
walk of a tree; otherwise it may keep, skip or remove nodes.  Then the walk gives a result, with as many visits
as the course has deeds, and this is at most the size of the tree and of all the trees that were put in. -/
theorem bounded_editing_ends {editor : Editor σ} {s : σ} {tree : Node}
    (hfinite : EditsFinitely editor s tree) :
    ∃ (deeds : List Deed) (s' : σ) (result : Except StructureError Node),
      (∀ k : Nat, course editor s tree k = deeds.take k) ∧
      deeds.length ≤ tree.size + insertedSize deeds ∧
      ∀ bound : Nat, deeds.length ≤ bound + 1 →
        tree.walk editor.visitor bound s = some (s', result) ∧
        tree.walk editor.recorder bound (s, []) = some ((s', deeds), result) := by
  obtain ⟨most, hmost⟩ := hfinite
  obtain ⟨deeds, hends⟩ := exists_ends most hmost
  obtain ⟨s', result, hwalk⟩ := walk_of_course hends
  have hsize : pendingSize [⟨[], [tree]⟩] = tree.size := by
    rw [pendingSize, List.flatMap_singleton, Node.sizeOfList, Node.sizeOfList, Nat.add_zero]
  refine ⟨deeds, s', result, hends, hsize ▸ hends.length_le, fun bound hbound => ⟨?_, hwalk bound hbound⟩⟩
  -- the editor does not look at the record
  have hforget := @walk_map _ _ editor.recorder editor.visitor Prod.fst (fun _ _ _ => rfl) bound (s, []) tree
  rw [hwalk bound hbound] at hforget
  exact hforget

/-- An editor on a budget: to put nodes in costs one, and when nothing is left the node is kept as it is. -/
def thrifty (deed : Node → Deed) : Editor Nat := fun budget _ n =>
  if (deed n).edits then
    if budget = 0 then (budget, { answer := .keep }) else (budget - 1, deed n)
  else (budget, deed n)

theorem Editor.edits_act {editor : Editor σ} {s : σ} {ancestors : List Node} {n : Node}
    (h : (editor s ancestors n).2.edits = false) : (editor.act s ancestors n).2.edits = false := by
  rw [Deed.edits, Bool.not_eq_false', List.isEmpty_iff, Deed.inserted, List.append_eq_nil_iff] at h
  rw [Editor.act]
  cases ancestors <;> simp [Deed.edits, Deed.inserted, h.1, h.2]

theorem thrifty_act (deed : Node → Deed) (budget : Nat) (ancestors : List Node) (n : Node) :
    ((thrifty deed).act budget ancestors n).1 +
      (if ((thrifty deed).act budget ancestors n).2.edits then 1 else 0) ≤ budget := by
  have hbudget : (thrifty deed budget ancestors n).1 = budget ∧
        (thrifty deed budget ancestors n).2.edits = false ∨
      (thrifty deed budget ancestors n).1 + 1 = budget := by
    rw [thrifty]
    split
    · split
      · exact .inl ⟨rfl, rfl⟩
      · exact .inr (Nat.sub_add_cancel (by omega))
    · exact .inl ⟨rfl, Bool.eq_false_iff.mpr ‹_›⟩
  rcases hbudget with ⟨hsame, hquiet⟩ | hpaid
  · rw [Editor.edits_act hquiet]
    exact Nat.le_of_eq hsame
  · refine Nat.le_trans (Nat.add_le_add_left ?_ _) (Nat.le_of_eq hpaid)
    split <;> omega

theorem countP_thrifty (deed : Node → Deed) (k budget : Nat) (levels : List Level) :
    (firstDeeds (thrifty deed) k budget levels).countP Deed.edits ≤ budget := by
  induction k generalizing budget levels with
  | zero => exact Nat.zero_le _
  | succ k ih =>
    cases hnext : next? levels with
    | none =>
      rw [firstDeeds_none hnext]
      exact Nat.zero_le _
    | some v =>
      rw [firstDeeds_some hnext, List.countP_cons]
      have hpaid := thrifty_act deed budget v.ancestors v.node
      have hrest := ih ((thrifty deed).act budget v.ancestors v.node).1
        (v.following ((thrifty deed).act budget v.ancestors v.node).2)
      omega

/-- A text at the end of a paragraph and another paragraph after it, strong text in the place of emphasis, and
no line breaks. -/
def growing (n : Node) : Deed :=
  if n.kind = "paragraph" then
    { answer := .keep, inside := [.ofText "a" none], beside := [.branch { kind := "paragraph" } []] }
  else if n.kind = "emphasis" then
    { answer := .replace (.branch { kind := "strong" } [.leaf { kind := "break" }]) }
  else if n.kind = "break" then { answer := .remove }
  else { answer := .keep }

/-- A paragraph with emphasis and a line break. -/
def seedling : Node :=
  .ofChildren [.branch { kind := "paragraph" } [.branch { kind := "emphasis" } [], .leaf { kind := "break" }]]

theorem bounded_editing_ends_growing :
    EditsFinitely (thrifty growing) 3 seedling ∧ seedling.size = 4 ∧
    ∃ (deeds : List Deed) (s' : Nat) (result : Except StructureError Node),
      deeds.length = 9 ∧ insertedSize deeds = 6 ∧ 9 ≤ 4 + 6 ∧
      seedling.walk (thrifty growing).visitor 8 3 = some (s', result) ∧
      seedling.walk (thrifty growing).recorder 8 (3, []) = some ((s', deeds), result) := by
  have hfinite : EditsFinitely (thrifty growing) 3 seedling := ⟨3, fun k => countP_thrifty growing k 3 _⟩
  obtain ⟨deeds, s', result, hcourse, hbound, hwalk⟩ := bounded_editing_ends hfinite
  have hcut : (course (thrifty growing) 3 seedling 10).length = 9 ∧
      insertedSize (course (thrifty growing) 3 seedling 10) = 6 := by
    decide +kernel
  rw [hcourse, List.length_take] at hcut
  have hlength : deeds.length = 9 := by omega
  rw [List.take_of_length_le (by omega)] at hcut
  have hsize : seedling.size = 4 := by decide +kernel
  rw [hlength, hsize, hcut.2] at hbound
  exact ⟨hfinite, hsize, deeds, s', result, hlength, hcut.2, hbound, hwalk 8 (by omega)⟩

end Walk

end Mdx
