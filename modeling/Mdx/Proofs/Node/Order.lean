import Mdx.Node.Vocabulary

/-!
# Document order and nesting

The nodes of a tree are listed from a stack.  Listing is a homomorphism on stacks
(`flattenStack_append`), so a node is in the list of a tree exactly if it is the tree or in the list of
one of its children (`mem_flatten`), and a tree passes the check of a vocabulary exactly if all of its
nodes do (`checkKinds_eq_ok_iff`).

`Node.bare` is the tree without its positions.
-/

namespace Mdx.Node

/-! ### Document order -/

@[simp] theorem flattenStack_nil : flattenStack [] = [] := by
  rw [flattenStack]

theorem flattenStack_cons (n : Node) (rest : List Node) :
    flattenStack (n :: rest) = n :: flattenStack (n.children ++ rest) := by
  rw [flattenStack]

theorem flattenStack_append (xs ys : List Node) :
    flattenStack (xs ++ ys) = flattenStack xs ++ flattenStack ys := by
  induction xs using flattenStack.induct with
  | case1 => rw [flattenStack_nil, List.nil_append, List.nil_append]
  | case2 n rest ih =>
    rw [List.cons_append, flattenStack_cons, flattenStack_cons, ← List.append_assoc, ih,
      List.cons_append]

theorem flatten_eq (n : Node) : n.flatten = n :: flattenStack n.children := by
  rw [flatten, flattenStack_cons, List.append_nil]

theorem flattenStack_eq_append (n : Node) (rest : List Node) :
    flattenStack (n :: rest) = n.flatten ++ flattenStack rest :=
  flattenStack_append [n] rest

theorem mem_flattenStack {x : Node} {ns : List Node} :
    x ∈ flattenStack ns ↔ ∃ n ∈ ns, x ∈ n.flatten := by
  induction ns with
  | nil => simp
  | cons n rest ih =>
    rw [flattenStack_eq_append, List.mem_append, ih]
    simp only [List.mem_cons, exists_eq_or_imp]

theorem mem_flattenStack_cons {x n : Node} {rest : List Node} :
    x ∈ flattenStack (n :: rest) ↔ x = n ∨ x ∈ flattenStack n.children ∨ x ∈ flattenStack rest := by
  rw [flattenStack_cons, flattenStack_append, List.mem_cons, List.mem_append]

/-- **A node of a tree is the tree or a node of one of its children.** -/
theorem mem_flatten {x n : Node} : x ∈ n.flatten ↔ x = n ∨ ∃ c ∈ n.children, x ∈ c.flatten := by
  rw [flatten_eq, List.mem_cons, mem_flattenStack]

theorem mem_flattenStack_self {n : Node} {ns : List Node} (h : n ∈ ns) : n ∈ flattenStack ns :=
  mem_flattenStack.mpr ⟨n, h, mem_flatten.mpr (.inl rfl)⟩

/-! ### What holds of all nodes -/

/-- A predicate holds of all nodes of these trees. -/
def Everywhere (P : Node → Prop) (ns : List Node) : Prop :=
  ∀ x ∈ flattenStack ns, P x

section Everywhere

variable {P : Node → Prop}

theorem everywhere_nil : Everywhere P [] := by
  intro x hx
  rw [flattenStack_nil] at hx
  cases hx

theorem everywhere_cons {n : Node} {rest : List Node} :
    Everywhere P (n :: rest) ↔ P n ∧ Everywhere P n.children ∧ Everywhere P rest := by
  constructor
  · intro h
    refine ⟨h n ?_, fun x hx => h x ?_, fun x hx => h x ?_⟩
    · exact mem_flattenStack_cons.mpr (.inl rfl)
    · exact mem_flattenStack_cons.mpr (.inr (.inl hx))
    · exact mem_flattenStack_cons.mpr (.inr (.inr hx))
  · rintro ⟨hn, hc, hrest⟩ x hx
    rcases mem_flattenStack_cons.mp hx with rfl | hx | hx
    · exact hn
    · exact hc x hx
    · exact hrest x hx

theorem everywhere_append {xs ys : List Node} :
    Everywhere P (xs ++ ys) ↔ Everywhere P xs ∧ Everywhere P ys := by
  rw [Everywhere, flattenStack_append, List.forall_mem_append]
  rfl

theorem Everywhere.append {xs ys : List Node} (hx : Everywhere P xs) (hy : Everywhere P ys) :
    Everywhere P (xs ++ ys) :=
  everywhere_append.mpr ⟨hx, hy⟩

theorem Everywhere.reverse {ns : List Node} (h : Everywhere P ns) : Everywhere P ns.reverse := by
  intro x hx
  obtain ⟨n, hn, hxn⟩ := mem_flattenStack.mp hx
  exact h x (mem_flattenStack.mpr ⟨n, List.mem_reverse.mp hn, hxn⟩)

end Everywhere

/-! ### Nodes that pass a test -/

/-- The nodes of these trees that pass a test, in document order. -/
def select (p : Node → Bool) (ns : List Node) : List Node :=
  (flattenStack ns).filter p

section Select

variable {p : Node → Bool} {n : Node}

@[simp] theorem select_nil : select p [] = [] := by
  rw [select, flattenStack_nil, List.filter_nil]

theorem select_append (xs ys : List Node) : select p (xs ++ ys) = select p xs ++ select p ys := by
  rw [select, flattenStack_append, List.filter_append]
  rfl

theorem select_cons_of_pos (hn : p n = true) (rest : List Node) :
    select p (n :: rest) = n :: select p n.children ++ select p rest := by
  rw [select, flattenStack_cons, List.filter_cons_of_pos hn, flattenStack_append, List.filter_append]
  rfl

theorem select_cons_of_neg (hn : p n = false) (rest : List Node) :
    select p (n :: rest) = select p n.children ++ select p rest := by
  rw [select, flattenStack_cons, List.filter_cons_of_neg (by rw [hn]; decide), flattenStack_append,
    List.filter_append]
  rfl

theorem select_eq_nil {ns : List Node} (h : Everywhere (fun n => p n = false) ns) : select p ns = [] := by
  rw [select, List.filter_eq_nil_iff]
  intro x hx
  rw [h x hx]
  decide

end Select

/-! ### Induction over trees -/

theorem size_le_of_mem {c : Node} {ns : List Node} (h : c ∈ ns) : c.size ≤ sizeOfList ns := by
  induction ns with
  | nil => cases h
  | cons n rest ih =>
    rw [sizeOfList]
    rcases List.mem_cons.mp h with rfl | h
    · exact Nat.le_add_right _ _
    · exact Nat.le_trans (ih h) (Nat.le_add_left _ _)

theorem size_lt_of_mem {n c : Node} (h : c ∈ n.children) : c.size < n.size := by
  have := size_le_of_mem h
  rw [size_eq n]
  omega

theorem induction {motive : Node → Prop}
    (step : ∀ n : Node, (∀ c ∈ n.children, motive c) → motive n) (n : Node) : motive n := by
  induction hs : n.size using Nat.strongRecOn generalizing n with
  | _ k ih =>
    subst hs
    exact step n fun c hc => ih c.size (size_lt_of_mem hc) c rfl

theorem mem_flatten_trans {x y n : Node} (hy : y ∈ n.flatten) (hx : x ∈ y.flatten) :
    x ∈ n.flatten := by
  induction n using induction with
  | step n ih =>
    rcases mem_flatten.mp hy with rfl | ⟨c, hc, hyc⟩
    · exact hx
    · exact mem_flatten.mpr (.inr ⟨c, hc, ih c hc hyc⟩)

theorem mem_flattenStack_trans {x y : Node} {ns : List Node} (hy : y ∈ flattenStack ns)
    (hx : x ∈ flattenStack y.children) : x ∈ flattenStack ns := by
  obtain ⟨n, hn, hyn⟩ := mem_flattenStack.mp hy
  have hxy : x ∈ y.flatten := by
    rw [flatten_eq]
    exact List.mem_cons_of_mem y hx
  exact mem_flattenStack.mpr ⟨n, hn, mem_flatten_trans hyn hxy⟩

/-- What holds of a node if it holds of all nodes below it holds of every node. -/
theorem descendant_induction {motive : Node → Prop}
    (step : ∀ n : Node, (∀ x ∈ flattenStack n.children, motive x) → motive n) (n : Node) :
    motive n := by
  suffices h : ∀ x ∈ n.flatten, motive x from h n (mem_flatten.mpr (.inl rfl))
  induction n using induction with
  | step n ih =>
    intro x hx
    rcases mem_flatten.mp hx with rfl | ⟨c, hc, hxc⟩
    · refine step x fun y hy => ?_
      obtain ⟨c, hc, hyc⟩ := mem_flattenStack.mp hy
      exact ih c hc y hyc
    · exact ih c hc x hxc

/-! ### Vocabularies -/

theorem checkKinds_eq_ok_iff {vocabulary : List String} {stage : String} {ns : List Node} :
    checkKinds vocabulary stage ns = .ok () ↔ ∀ n ∈ ns, n.kind ∈ vocabulary := by
  induction ns with
  | nil => simp [checkKinds]
  | cons n rest ih =>
    rw [checkKinds, checkKind, List.forall_mem_cons, ← ih]
    by_cases h : n.kind ∈ vocabulary
    · have hc : vocabulary.contains n.head.kind = true := List.contains_iff_mem.mpr h
      simp only [hc, if_true, h, true_and]
    · have hc : vocabulary.contains n.head.kind = false := by
        rw [← Bool.not_eq_true, List.contains_iff_mem]
        exact h
      simp only [hc, Bool.false_eq_true, if_false, h, false_and, reduceCtorEq]

/-- **A tree is valid exactly if it is a root and all its nodes are of the vocabulary.** -/
theorem validate_eq_ok_iff {tree : Node} {vocabulary : List String} {stage : String} :
    tree.validate vocabulary stage = .ok () ↔
      tree.kind = "root" ∧ ∀ n ∈ tree.flatten, n.kind ∈ vocabulary := by
  rw [validate]
  by_cases h : tree.kind = "root"
  · rw [if_pos h, checkKinds_eq_ok_iff]
    exact ⟨fun hall => ⟨h, hall⟩, And.right⟩
  · rw [if_neg h]
    exact ⟨fun hno => (by cases hno), fun hroot => absurd hroot.1 h⟩

/-! ### Trees without positions -/

/-- The tree without its positions. -/
def bare (n : Node) : Node :=
  n.mapHeads fun h => { h with position := none }

/-- The trees without their positions. -/
def bareList (ns : List Node) : List Node :=
  mapHeadsList (fun h => { h with position := none }) ns

@[simp] theorem bareList_nil : bareList [] = [] := rfl

@[simp] theorem bareList_cons (n : Node) (rest : List Node) :
    bareList (n :: rest) = n.bare :: bareList rest := rfl

@[simp] theorem bare_branch (h : NodeHead) (cs : List Node) :
    (branch h cs).bare = branch { h with position := none } (bareList cs) := rfl

theorem kind_bare (n : Node) : n.bare.kind = n.kind := by
  cases n <;> rfl

theorem children_bare (n : Node) : n.bare.children = bareList n.children := by
  cases n <;> rfl

theorem bareList_append (xs ys : List Node) : bareList (xs ++ ys) = bareList xs ++ bareList ys := by
  induction xs with
  | nil => rfl
  | cons n rest ih => rw [List.cons_append, bareList_cons, bareList_cons, ih, List.cons_append]

theorem flattenStack_bareList (ns : List Node) :
    flattenStack (bareList ns) = (flattenStack ns).map bare := by
  induction ns using flattenStack.induct with
  | case1 => rw [bareList_nil, flattenStack_nil, List.map_nil]
  | case2 n rest ih =>
    rw [bareList_cons, flattenStack_cons, children_bare, ← bareList_append, ih, flattenStack_cons,
      List.map_cons]

theorem flatten_bare (n : Node) : n.bare.flatten = n.flatten.map bare :=
  flattenStack_bareList [n]

end Mdx.Node
