import Mathlib.Data.List.Nodup
import Mdx.Node.Serial
import Mdx.Proofs.Fault.Result
import Mdx.Proofs.Node.Order

/-!
# The interchange format keeps trees

The members of a written node stand in a fixed order: the kind, the properties, and then the value, the
children and the position, as far as there are any (`fields`).  Reading takes the same members apart
again, so a node is read as it was written if its properties are such as reading leaves them
(`ReadAs`): under keys of their own, none of them reserved, followed by the kind and the value
in case these are no texts.

All nodes whose properties have no reserved keys are of this form (`Free.readAs`), and so is
everything that is ever read (`readable_of_ofJson`).
-/

namespace Mdx

/-! ### Members -/

namespace Json

/-- The keys of the members differ. -/
def Members.Distinct (members : Members) : Prop :=
  (members.map Prod.fst).Nodup

mutual

/-- In every object of a value the keys of the members differ. -/
def Distinct : Json → Prop
  | .arr items => DistinctItems items
  | .obj members => Members.Distinct members ∧ DistinctMembers members
  | _ => True

/-- In every object of the items the keys of the members differ. -/
def DistinctItems : List Json → Prop
  | [] => True
  | v :: rest => Distinct v ∧ DistinctItems rest

/-- In every object below the members the keys of the members differ. -/
def DistinctMembers : List (String × Json) → Prop
  | [] => True
  | (_, v) :: rest => Distinct v ∧ DistinctMembers rest

end

namespace Members

variable {key : String} {value : Json} {members lower upper : Members}

theorem insert_of_not_mem (h : key ∉ members.map Prod.fst) :
    insert key value members = members ++ [(key, value)] := by
  induction members with
  | nil => rfl
  | cons m rest ih =>
    rw [List.map_cons, List.mem_cons, not_or] at h
    rw [insert, if_neg (Ne.symm h.1), ih h.2]
    rfl

/-- Members under new keys are laid over others by adding them at the end. -/
theorem merge_of_distinct (h : Distinct (lower ++ upper)) : merge lower upper = lower ++ upper := by
  induction upper generalizing lower with
  | nil => exact (List.append_nil lower).symm
  | cons m rest ih =>
    have hfresh : m.1 ∉ lower.map Prod.fst := by
      intro hmem
      rw [Distinct, List.map_append, List.map_cons, List.nodup_append] at h
      exact h.2.2 m.1 hmem m.1 List.mem_cons_self rfl
    have hassoc : lower ++ m :: rest = lower ++ [m] ++ rest := (List.append_cons lower m rest)
    rw [hassoc] at h ⊢
    rw [← ih h]
    show merge (insert m.1 m.2 lower) rest = _
    rw [insert_of_not_mem hfresh]

theorem merge_append (lower upper more : Members) :
    merge lower (upper ++ more) = merge (merge lower upper) more :=
  List.foldl_append

theorem lookup_of_not_mem (h : key ∉ members.map Prod.fst) : members.lookup key = none := by
  rw [List.lookup_eq_none_iff]
  intro m hm
  rw [bne_iff_ne]
  rintro rfl
  exact h (List.mem_map_of_mem hm)

end Members

end Json

/-! ### Positions -/

theorem Position.ofJson?_toJson (p : Option Position) :
    Position.ofJson? (p.map Position.toJson) = .ok p := by
  cases p <;> rfl

namespace Node

open Json (Members)

/-! ### Members that may be left out -/

/-- A member that may be left out. -/
def member (key : String) : Option Json → Members
  | none => []
  | some v => [(key, v)]

section Member

variable {members : Members} {key key' : String}

theorem not_mem_member (hne : key ≠ key') (v : Option Json) : key ∉ (member key' v).map Prod.fst := by
  cases v with
  | none => exact List.not_mem_nil
  | some v => simpa [member] using hne

theorem not_mem_append_member (h : key ∉ members.map Prod.fst) (hne : key ≠ key') (v : Option Json) :
    key ∉ (members ++ member key' v).map Prod.fst := by
  rw [List.map_append, List.mem_append, not_or]
  exact ⟨h, not_mem_member hne v⟩

theorem lookup_append_member (h : key ∉ members.map Prod.fst) (v : Option Json) :
    (members ++ member key v).lookup key = v := by
  rw [List.lookup_append, Members.lookup_of_not_mem h, Option.none_or]
  cases v with
  | none => rfl
  | some v => exact List.lookup_cons_self

theorem lookup_append_member_of_ne (hne : key ≠ key') (v : Option Json) :
    (members ++ member key' v).lookup key = members.lookup key := by
  rw [List.lookup_append, Members.lookup_of_not_mem (not_mem_member hne v), Option.or_none]

theorem filter_append_member (hkey : key ∈ reservedKeys) (v : Option Json) :
    (members ++ member key v).filter (fun m => !reservedKeys.contains m.1) =
      members.filter (fun m => !reservedKeys.contains m.1) := by
  have hnil : (member key v).filter (fun m => !reservedKeys.contains m.1) = [] := by
    cases v with
    | none => rfl
    | some v => simp [member, hkey]
  rw [List.filter_append, hnil, List.append_nil]

end Member

/-! ### The members of a node -/

/-- The members of an object in the order in which those of a node are written. -/
def fields (kind : Json) (kept : Members) (value children position : Option Json) : Members :=
  ("type", kind) :: kept ++ member "value" value ++ member "children" children ++
    member "position" position

/-- Members under keys of their own, none of them reserved. -/
structure Free (kept : Members) : Prop where
  distinct : Members.Distinct kept
  not_mem : ∀ key ∈ reservedKeys, key ∉ kept.map Prod.fst

instance (kept : Members) : Decidable (Free kept) :=
  decidable_of_iff ((kept.map Prod.fst).Nodup ∧ ∀ key ∈ reservedKeys, key ∉ kept.map Prod.fst)
    ⟨fun h => ⟨h.1, h.2⟩, fun h => ⟨h.distinct, h.not_mem⟩⟩

theorem Free.not_mem_cons {kept : Members} (h : Free kept) {key : String} (hkey : key ∈ reservedKeys)
    (hne : key ≠ "type") (kind : Json) : key ∉ (("type", kind) :: kept).map Prod.fst := by
  rw [List.map_cons, List.mem_cons, not_or]
  exact ⟨hne, h.not_mem key hkey⟩

/-- The head of a node whose kind, value and members under other keys are as an object has them.  A
kind or a value that is no text stands among the properties, after the others. -/
structure ReadAs (h : NodeHead) (kind : Json) (kept : Members) (value : Option Json) : Prop where
  kind_eq : h.kind = kind.plain
  value_eq : h.value = valueOf value
  props_eq : h.props = kept ++ misfit "type" (some kind) ++ misfit "value" value
  value_ne_null : value ≠ some .null
  free : Free kept

/-- A node with a head such as reading leaves it. -/
def Readable (n : Node) : Prop :=
  ∃ (kind : Json) (kept : Members) (value : Option Json), ReadAs n.head kind kept value

section Fields

variable {kind : Json} {kept : Members} {value children position : Option Json}

/-! ### Writing -/

/-- The members with one more, if there is one. -/
def put (key : String) (v : Option Json) (members : Members) : Members :=
  v.elim members fun v => Members.insert key v members

theorem put_of_not_mem {members : Members} {key : String} (h : key ∉ members.map Prod.fst)
    (v : Option Json) : put key v members = members ++ member key v := by
  cases v with
  | none => exact (List.append_nil members).symm
  | some v => exact Members.insert_of_not_mem h

theorem headMembers_eq_put (h : NodeHead) :
    headMembers h = put "value" (h.value.map .str) (Members.merge [("type", .str h.kind)] h.props) := by
  rw [headMembers]
  cases h.value <;> rfl

theorem toJson_eq_put (n : Node) :
    n.toJson = .obj (put "position" (n.position.map Position.toJson)
      (put "children" (n.children?.map fun cs => .arr (toJsonList cs)) (headMembers n.head))) := by
  have hposition (position : Option Position) (members : Members) :
      addPosition position members = put "position" (position.map Position.toJson) members := by
    cases position <;> rfl
  cases n with
  | leaf h =>
    rw [toJson, hposition]
    rfl
  | branch h cs =>
    rw [toJson, hposition]
    rfl

theorem merge_misfit_type (kind : Json) (kept : Members) :
    Members.merge (("type", .str kind.plain) :: kept) (misfit "type" (some kind)) =
      ("type", kind) :: kept := by
  cases kind <;> rfl

/-- The value that is written in the end, as a text or among the properties, is the one that was read. -/
theorem put_misfit_value {members : Members} (hne : value ≠ some .null)
    (hfresh : "value" ∉ members.map Prod.fst) :
    put "value" ((valueOf value).map .str) (Members.merge members (misfit "value" value)) =
      members ++ member "value" value := by
  cases value with
  | none => exact put_of_not_mem hfresh none
  | some v =>
    cases v with
    | null => exact absurd rfl hne
    | _ => exact put_of_not_mem hfresh (some _)

theorem ReadAs.headMembers_eq {h : NodeHead} (hr : ReadAs h kind kept value) :
    headMembers h = ("type", kind) :: kept ++ member "value" value := by
  have hkept : Members.merge [("type", .str kind.plain)] kept = ("type", .str kind.plain) :: kept :=
    Members.merge_of_distinct (List.nodup_cons.mpr ⟨hr.free.not_mem "type" (by decide), hr.free.distinct⟩)
  have hfresh : "value" ∉ (("type", kind) :: kept).map Prod.fst :=
    hr.free.not_mem_cons (by decide) (by decide) kind
  rw [headMembers_eq_put, hr.props_eq, hr.kind_eq, hr.value_eq, Members.merge_append,
    Members.merge_append, hkept, merge_misfit_type, put_misfit_value hr.value_ne_null hfresh]

/-- **A node is written as its kind, its properties and what else there is of it**, in this order. -/
theorem ReadAs.toJson_eq {n : Node} (hr : ReadAs n.head kind kept value) :
    n.toJson = .obj (fields kind kept value (n.children?.map fun cs => .arr (toJsonList cs))
      (n.position.map Position.toJson)) := by
  have hc : "children" ∉ (("type", kind) :: kept ++ member "value" value).map Prod.fst :=
    not_mem_append_member (hr.free.not_mem_cons (by decide) (by decide) kind) (by decide) value
  have hp : "position" ∉ (("type", kind) :: kept ++ member "value" value).map Prod.fst :=
    not_mem_append_member (hr.free.not_mem_cons (by decide) (by decide) kind) (by decide) value
  rw [toJson_eq_put, hr.headMembers_eq, put_of_not_mem hc,
    put_of_not_mem (not_mem_append_member hp (by decide) _)]
  rfl

/-! ### Reading -/

theorem childrenOf_eq (members : Members) :
    childrenOf members = (members.lookup "children").elim (.ok none) childrenFrom := by
  induction members with
  | nil => rw [childrenOf]; rfl
  | cons m rest ih =>
    obtain ⟨key, v⟩ := m
    rw [childrenOf]
    by_cases hk : key = "children"
    · rw [if_pos hk, hk, List.lookup_cons_self]
      rfl
    · rw [if_neg hk, List.lookup_cons, beq_eq_false_iff_ne.mpr (Ne.symm hk)]
      exact ih

/-- The reserved members of a written node are found again under their keys. -/
theorem Free.lookup_fields (h : Free kept) (kind : Json) (value children position : Option Json) :
    (fields kind kept value children position).lookup "type" = some kind ∧
      (fields kind kept value children position).lookup "value" = value ∧
      (fields kind kept value children position).lookup "children" = children ∧
      (fields kind kept value children position).lookup "position" = position := by
  have hv : "value" ∉ (("type", kind) :: kept).map Prod.fst :=
    h.not_mem_cons (by decide) (by decide) kind
  have hc : "children" ∉ (("type", kind) :: kept).map Prod.fst :=
    h.not_mem_cons (by decide) (by decide) kind
  have hp : "position" ∉ (("type", kind) :: kept).map Prod.fst :=
    h.not_mem_cons (by decide) (by decide) kind
  refine ⟨List.lookup_cons_self, ?_, ?_, ?_⟩
  · rw [fields, lookup_append_member_of_ne (by decide), lookup_append_member_of_ne (by decide),
      lookup_append_member hv]
  · rw [fields, lookup_append_member_of_ne (by decide),
      lookup_append_member (not_mem_append_member hc (by decide) value)]
  · rw [fields, lookup_append_member (not_mem_append_member
      (not_mem_append_member hp (by decide) value) (by decide) children)]

theorem Free.filter_fields (h : Free kept) :
    (fields kind kept value children position).filter (fun m => !reservedKeys.contains m.1) = kept := by
  have hkept : kept.filter (fun m => !reservedKeys.contains m.1) = kept := by
    rw [List.filter_eq_self]
    intro m hm
    rw [Bool.not_eq_true', ← Bool.not_eq_true, List.contains_iff_mem]
    exact fun hmem => h.not_mem m.1 hmem (List.mem_map_of_mem hm)
  rw [fields, filter_append_member (by decide), filter_append_member (by decide),
    filter_append_member (by decide), List.filter_cons_of_neg (by simp [reservedKeys]), hkept]

theorem ReadAs.headOf_eq {h : NodeHead} (hr : ReadAs h kind kept value) :
    headOf kind h.position (fields kind kept value children position) = h := by
  obtain ⟨-, hvalue, -, -⟩ := hr.free.lookup_fields kind value children position
  rw [headOf, hvalue, hr.free.filter_fields, ← hr.kind_eq, ← hr.value_eq, ← hr.props_eq]

end Fields

theorem ofJsonList_toJsonList {cs : List Node} (h : ∀ c ∈ cs, ofJson c.toJson = .ok c) :
    ofJsonList (toJsonList cs) = .ok cs := by
  induction cs with
  | nil => rw [toJsonList, ofJsonList]
  | cons c rest ih =>
    obtain ⟨hc, hrest⟩ := List.forall_mem_cons.mp h
    rw [toJsonList, ofJsonList, hc, ih hrest]

theorem childrenFrom_toJson {n : Node} (h : ∀ c ∈ n.children, ofJson c.toJson = .ok c) :
    (n.children?.map fun cs => Json.arr (toJsonList cs)).elim (.ok none) childrenFrom =
      .ok n.children? := by
  cases n with
  | leaf head => rfl
  | branch head cs =>
    have hcs : ofJsonList (toJsonList cs) = .ok cs := ofJsonList_toJsonList h
    show childrenFrom (.arr (toJsonList cs)) = .ok (some cs)
    rw [childrenFrom, hcs]

/-- **A tree is read as it was written**, if each of its nodes is such as reading leaves it. -/
theorem ofJson_toJson {n : Node} (h : Everywhere Readable [n]) : ofJson n.toJson = .ok n := by
  induction n using Node.induction with
  | step n ih =>
    obtain ⟨⟨kind, kept, value, hr⟩, hbelow, -⟩ := everywhere_cons.mp h
    have hchild : ∀ c ∈ n.children, ofJson c.toJson = .ok c := fun c hc =>
      ih c hc fun x hx => hbelow x (mem_flattenStack.mpr ⟨c, hc, hx⟩)
    obtain ⟨htype, -, hc, hp⟩ := hr.free.lookup_fields kind value
      (n.children?.map fun cs => .arr (toJsonList cs)) (n.position.map Position.toJson)
    have hposition : n.position = n.head.position := rfl
    rw [hr.toJson_eq, ofJson, htype]
    dsimp only
    rw [childrenOf_eq, hc, childrenFrom_toJson hchild, hp, Position.ofJson?_toJson]
    dsimp only
    rw [hposition, hr.headOf_eq]
    cases n <;> rfl

/-! ### What reading leaves -/

theorem Free.readAs {h : NodeHead} (hf : Free h.props) :
    ReadAs h (.str h.kind) h.props (h.value.map .str) := by
  obtain ⟨kind, value, position, props⟩ := h
  cases value with
  | none => exact ⟨rfl, rfl, by simp [misfit], by simp, hf⟩
  | some v => exact ⟨rfl, rfl, by simp [misfit], by simp, hf⟩

theorem free_filter {members : Members} (h : Members.Distinct members) :
    Free (members.filter fun m => !reservedKeys.contains m.1) where
  distinct := (List.filter_sublist.map Prod.fst).nodup h
  not_mem := by
    intro key hkey hmem
    obtain ⟨m, hm, rfl⟩ := List.mem_map.mp hmem
    have hfree := (List.mem_filter.mp hm).2
    rw [List.contains_iff_mem.mpr hkey] at hfree
    cases hfree

theorem exists_readAs_headOf {members : Members} (h : Members.Distinct members) (kind : Json)
    (position : Option Position) :
    ∃ value : Option Json, ReadAs (headOf kind position members) kind
      (members.filter fun m => !reservedKeys.contains m.1) value := by
  by_cases hnull : members.lookup "value" = some .null
  · -- a value that is null is left out
    refine ⟨none, rfl, ?_, ?_, by simp, free_filter h⟩
    · rw [headOf, hnull]
      rfl
    · rw [headOf, hnull]
      rfl
  · exact ⟨members.lookup "value", rfl, rfl, rfl, hnull, free_filter h⟩

theorem everywhere_ofParts {h : NodeHead} {children : Option (List Node)}
    (hh : ∃ (kind : Json) (kept : Members) (value : Option Json), ReadAs h kind kept value)
    (hc : Everywhere Readable (children.getD [])) : Everywhere Readable [ofParts h children] := by
  cases children with
  | none => exact everywhere_cons.mpr ⟨hh, everywhere_nil, everywhere_nil⟩
  | some cs => exact everywhere_cons.mpr ⟨hh, hc, everywhere_nil⟩

mutual

/-- **Whatever is read can be written and read again**: each node is such as reading leaves it. -/
theorem readable_of_ofJson : ∀ (v : Json) {n : Node}, v.Distinct → ofJson v = .ok n →
    Everywhere Readable [n]
  | .obj members, n, hd, h => by
    rw [Json.Distinct] at hd
    rw [ofJson] at h
    split at h
    · cases h
    next kind hkind =>
      split at h
      · cases h
      next children hchildren =>
        split at h
        · cases h
        next position hposition =>
          cases h
          obtain ⟨value, hr⟩ := exists_readAs_headOf hd.1 kind position
          exact everywhere_ofParts ⟨kind, _, value, hr⟩ (readable_of_childrenOf members hd.2 hchildren)
  | .arr items, n, _, h => by
    rw [ofJson] at h
    split at h <;> cases h
  | .str s, n, _, h => by
    rw [ofJson] at h
    cases h
  | .null, n, _, h => by cases h
  | .bool b, n, _, h => by cases h
  | .int i, n, _, h => by cases h
  | .float x, n, _, h => by cases h

theorem readable_of_childrenOf : ∀ (members : List (String × Json)) {cs : Option (List Node)},
    Json.DistinctMembers members → childrenOf members = .ok cs → Everywhere Readable (cs.getD [])
  | [], cs, _, h => by
    rw [childrenOf] at h
    cases h
    exact everywhere_nil
  | (key, v) :: rest, cs, hd, h => by
    rw [Json.DistinctMembers] at hd
    rw [childrenOf] at h
    split at h
    · exact readable_of_childrenFrom v hd.1 h
    · exact readable_of_childrenOf rest hd.2 h

theorem readable_of_childrenFrom : ∀ (v : Json) {cs : Option (List Node)}, v.Distinct →
    childrenFrom v = .ok cs → Everywhere Readable (cs.getD [])
  | .arr items, cs, hd, h => by
    rw [Json.Distinct] at hd
    rw [childrenFrom] at h
    split at h
    next ns hns =>
      cases h
      exact readable_of_ofJsonList items hd hns
    · cases h
  | .null, cs, _, h => by
    cases h
    exact everywhere_nil
  | .str s, cs, _, h => by
    rw [childrenFrom] at h
    split at h
    · cases h
      exact everywhere_nil
    · cases h
  | .obj [], cs, _, h => by
    cases h
    exact everywhere_nil
  | .obj (m :: rest), cs, _, h => by cases h
  | .bool b, cs, _, h => by cases h
  | .int i, cs, _, h => by cases h
  | .float x, cs, _, h => by cases h

theorem readable_of_ofJsonList : ∀ (items : List Json) {ns : List Node}, Json.DistinctItems items →
    ofJsonList items = .ok ns → Everywhere Readable ns
  | [], ns, _, h => by
    rw [ofJsonList] at h
    cases h
    exact everywhere_nil
  | v :: rest, ns, hd, h => by
    rw [Json.DistinctItems] at hd
    rw [ofJsonList] at h
    split at h
    · cases h
    next n hn =>
      split at h
      · cases h
      next ns' hns' =>
        cases h
        exact (readable_of_ofJson v hd.1 hn).append (readable_of_ofJsonList rest hd.2 hns')

end

/-- **The interchange format keeps trees.**  A tree in which no property has a reserved key is read as
it was written, and so is every tree that was itself read, from whatever object. -/
theorem serialization_round_trips :
    (∀ n : Node, (∀ x ∈ n.flatten, Free x.props) → ofJson n.toJson = .ok n) ∧
      ∀ (v : Json) (n : Node), v.Distinct → ofJson v = .ok n → ofJson n.toJson = .ok n := by
  constructor
  · intro n h
    exact ofJson_toJson fun x hx => ⟨_, _, _, (h x hx).readAs⟩
  · intro v n hd h
    exact ofJson_toJson (readable_of_ofJson v hd h)

/-- A heading with a property that is null, a text that has a position and a list without items. -/
def headingAndList : Node :=
  .branch { kind := "root" }
    [.branch { kind := "heading", props := [("depth", .int 1), ("id", .null)] }
      [.leaf { kind := "text", value := some "", position := some ⟨⟨1, 3, 2⟩, ⟨1, 4, 3⟩⟩ }],
     .branch { kind := "list" } []]

/-- An object with numbers in several forms, an offset that is missing, members that are null and a kind
that is no text. -/
def looseObject : Json :=
  .obj
    [("note", .null),
     ("children", .arr
       [.obj [("value", .str "a"), ("type", .str "text"), ("children", .null)],
        .obj [("type", .int 3), ("children", .arr []), ("value", .null), ("position", .obj [])]]),
     ("type", .str "root"),
     ("position", .obj
       [("end", .obj [("offset", .str " -1_0 "), ("line", .int 2), ("column", .str "7")]),
        ("start", .obj [("line", .bool true), ("column", .int 1), ("extra", .null)])])]

/-- What is read from that object. -/
def looseTree : Node :=
  .branch { kind := "root", position := some ⟨⟨1, 1, 0⟩, ⟨2, 7, -10⟩⟩, props := [("note", .null)] }
    [.leaf { kind := "text", value := some "a" },
     .branch { kind := "3", props := [("type", .int 3)] } []]

theorem serialization_round_trips_loose :
    ofJson headingAndList.toJson = .ok headingAndList ∧ ofJson looseObject = .ok looseTree ∧
      ofJson looseTree.toJson = .ok looseTree := by
  have hfree : ∀ x ∈ headingAndList.flatten, Free x.props := by
    have hall : Everywhere (fun x => Free x.props) [headingAndList] := by
      simp only [headingAndList, everywhere_cons, Node.children, everywhere_nil, and_true]
      decide
    exact hall
  have hdistinct : looseObject.Distinct := by
    simp [looseObject, Json.Distinct, Json.DistinctItems, Json.DistinctMembers, Members.Distinct]
  have hread : ofJson looseObject = .ok looseTree := rfl
  exact ⟨serialization_round_trips.1 headingAndList hfree, hread,
    serialization_round_trips.2 looseObject looseTree hdistinct hread⟩

end Node

end Mdx
