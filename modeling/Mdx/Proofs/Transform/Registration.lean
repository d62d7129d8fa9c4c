import Mathlib.Data.List.Nodup
import Mdx.Transform.Plugin

/-!
# Registrations in a row of operations

A registry is asked, loaded and cleared in any order.  Two facts carry over from step to step.  No two
entries have one name (`nodup_names_afterAll`), so a name is listed once, for its own stage
(`Registry.shows_of_get?`).  And the answer for a name changes only when the name is registered or the
registry is cleared (`Operation.get?_apply`): the bundled transform counts for an answer whether it is
loaded yet or not.

So the answer is settled at the moment of the registration.  It is the entry that was registered, with
one exception: an entry with the name of the bundled transform, registered before that one is loaded,
gives way to it.
-/

namespace Mdx.Registry

/-! ### Names of entries -/

theorem mem_map_name_insert {entry : RegistryEntry} {entries : List RegistryEntry} {name : String} :
    name ∈ (insert entry entries).map (·.name) ↔
      name = entry.name ∨ name ∈ entries.map (·.name) := by
  induction entries with
  | nil => simp [insert]
  | cons e rest ih =>
    rw [insert]
    by_cases h : e.name = entry.name
    · simp [h]
    · rw [if_neg h, List.map_cons, List.mem_cons, ih, List.map_cons, List.mem_cons]
      tauto

theorem nodup_map_name_insert {entries : List RegistryEntry} (entry : RegistryEntry)
    (h : (entries.map (·.name)).Nodup) : ((insert entry entries).map (·.name)).Nodup := by
  induction entries with
  | nil => simp [insert]
  | cons e rest ih =>
    rw [List.map_cons, List.nodup_cons] at h
    obtain ⟨hfresh, hrest⟩ := h
    rw [insert]
    by_cases he : e.name = entry.name
    · rw [if_pos he, List.map_cons, List.nodup_cons, ← he]
      exact ⟨hfresh, hrest⟩
    · rw [if_neg he, List.map_cons, List.nodup_cons]
      refine ⟨?_, ih hrest⟩
      intro hmem
      rcases mem_map_name_insert.mp hmem with heq | hmem
      · exact he heq
      · exact hfresh hmem

theorem nodup_names_ready {r : Registry} (h : r.names.Nodup) : r.ready.names.Nodup := by
  unfold ready
  split
  · exact h
  · exact nodup_map_name_insert bundledEntry h

/-! ### Answers for a name -/

/-- The registry, once asked, has the entry under its name, and lists the name once for the entry's
stage and not at all for another. -/
structure Shows (r : Registry) (entry : RegistryEntry) : Prop where
  found : r.get? entry.name = some entry
  listed : (r.list (some entry.stage)).count entry.name = 1
  unlisted : ∀ stage : String, stage ≠ entry.stage → entry.name ∉ r.list (some stage)

/-- Of entries with distinct names, the one that is found under a name is the only one of that name. -/
theorem eq_of_find?_name {entries : List RegistryEntry} {e e' : RegistryEntry} {name : String}
    (h : (entries.map (·.name)).Nodup) (hfind : entries.find? (·.name = name) = some e)
    (hmem : e' ∈ entries) (hname : e'.name = name) : e' = e := by
  have hfound : e.name = name := by simpa using List.find?_some hfind
  exact List.inj_on_of_nodup_map h hmem (List.mem_of_find?_eq_some hfind) (hname.trans hfound.symm)

theorem mem_list_iff {r : Registry} {stage name : String} :
    name ∈ r.list (some stage) ↔ ∃ e ∈ r.ready.entries, e.stage = stage ∧ e.name = name := by
  simp only [list, List.mem_map, List.mem_filter, Option.all_some, decide_eq_true_eq]
  constructor
  · rintro ⟨e, ⟨hmem, rfl⟩, hname⟩
    exact ⟨e, hmem, rfl, hname⟩
  · rintro ⟨e, hmem, rfl, hname⟩
    exact ⟨e, ⟨hmem, rfl⟩, hname⟩

/-- **With distinct names, the entry that is found is the one that is listed.** -/
theorem shows_of_get? {r : Registry} {entry : RegistryEntry} (h : r.names.Nodup)
    (hget : r.get? entry.name = some entry) : r.Shows entry := by
  have hready := nodup_names_ready h
  have hmem : entry ∈ r.ready.entries := List.mem_of_find?_eq_some hget
  refine ⟨hget, ?_, fun stage hstage hlisted => ?_⟩
  · have hnodup : (r.list (some entry.stage)).Nodup :=
      hready.sublist (List.filter_sublist.map _)
    exact List.count_eq_one_of_mem hnodup (mem_list_iff.mpr ⟨entry, hmem, rfl, rfl⟩)
  · obtain ⟨e, he, rfl, hname⟩ := mem_list_iff.mp hlisted
    exact hstage (congrArg RegistryEntry.stage (eq_of_find?_name hready hget he hname))

theorem ready_ready (r : Registry) : r.ready.ready = r.ready := by
  unfold ready
  cases h : r.loaded with
  | true => simp [h]
  | false => simp [loadBundled]

/-- The answer for a name: the bundled transform if it is still to be loaded under that name, and
otherwise what is there. -/
theorem get?_eq (r : Registry) (name : String) :
    r.get? name =
      if name = imageAutolinkName ∧ r.loaded = false then some bundledEntry
      else r.entries.find? (·.name = name) := by
  rw [get?, ready]
  cases hl : r.loaded with
  | true =>
    rw [if_pos rfl, if_neg fun h => Bool.noConfusion h.2]
    rfl
  | false =>
    rw [if_neg Bool.false_ne_true]
    by_cases hb : name = imageAutolinkName
    · rw [if_pos ⟨hb, rfl⟩, hb]
      exact find?_insert_self bundledEntry r.entries
    · rw [if_neg fun h => hb h.1]
      have hne : name ≠ bundledEntry.name := hb
      exact find?_insert_of_ne hne r.entries

/-- The answer for a name after an entry is set: the entry, if it has that name and is not about to
give way to the bundled transform, and the answer as it was otherwise. -/
theorem get?_insert (r : Registry) (entry : RegistryEntry) (name : String) :
    ({ r with entries := insert entry r.entries } : Registry).get? name =
      if name = entry.name ∧ ¬(name = imageAutolinkName ∧ r.loaded = false) then some entry
      else r.get? name := by
  rw [get?_eq, get?_eq]
  by_cases hb : name = imageAutolinkName ∧ r.loaded = false
  · rw [if_pos hb, if_pos hb, if_neg fun h => h.2 hb]
  · rw [if_neg hb, if_neg hb]
    by_cases hn : name = entry.name
    · rw [if_pos ⟨hn, hb⟩, hn]
      exact find?_insert_self entry r.entries
    · rw [if_neg fun h => hn h.1]
      exact find?_insert_of_ne hn r.entries

/-! ### Operations -/

/-- An operation on a registry. -/
inductive Operation where
  | register (name stage : String) (builtin : Bool) (transform : Transform)
  | get (name : String)
  | list (stage? : Option String)
  | builtins (stage : String)
  /-- Loads the bundled transform, if that has not been done. -/
  | load
  | clear

namespace Operation

/-- The registry after an operation.  A registration that fails changes nothing. -/
def apply (r : Registry) : Operation → Registry
  | .register name stage builtin t => (r.register name stage builtin t).toOption.getD r
  | .get _ => r.ready
  | .list _ => r.ready
  | .builtins _ => r.ready
  | .load => (r.load none []).1
  | .clear => {}

/-- The operation neither registers the name nor clears the registry. -/
def Spares (name : String) : Operation → Prop
  | .register other stage _ _ => other ≠ name ∨ stage ∉ stageNames
  | .clear => False
  | _ => True

theorem apply_register {r : Registry} {name stage : String} {builtin : Bool} {t : Transform}
    (h : stage ∈ stageNames) :
    apply r (.register name stage builtin t) =
      { r with entries := insert ⟨name, stage, rename name t, builtin⟩ r.entries } := by
  rw [apply, Registry.register, if_pos (List.contains_iff_mem.mpr h)]
  rfl

theorem apply_register_of_not_mem {r : Registry} {name stage : String} {builtin : Bool}
    {t : Transform} (h : stage ∉ stageNames) : apply r (.register name stage builtin t) = r := by
  rw [apply, Registry.register, if_neg (mt List.contains_iff_mem.mp h)]
  rfl

/-- **An operation keeps the names distinct.** -/
theorem nodup_names_apply {r : Registry} (op : Operation) (h : r.names.Nodup) :
    (apply r op).names.Nodup := by
  cases op with
  | register name stage builtin t =>
    by_cases hs : stage ∈ stageNames
    · rw [apply_register hs]
      exact nodup_map_name_insert _ h
    · rw [apply_register_of_not_mem hs]
      exact h
  | get name => exact nodup_names_ready h
  | list stage? => exact nodup_names_ready h
  | builtins stage => exact nodup_names_ready h
  | load => exact nodup_names_ready h
  | clear => exact List.nodup_nil

/-- **An operation that spares a name leaves the answer for it as it was.** -/
theorem get?_apply {r : Registry} {name : String} {op : Operation} (h : op.Spares name) :
    (apply r op).get? name = r.get? name := by
  have hready : r.ready.get? name = r.get? name := by
    rw [get?, get?, ready_ready]
  cases op with
  | register other stage builtin t =>
    by_cases hs : stage ∈ stageNames
    · have hne : name ≠ other := (h.resolve_right (not_not_intro hs)).symm
      rw [apply_register hs, get?_insert, if_neg]
      rintro ⟨heq, -⟩
      exact hne heq
    · rw [apply_register_of_not_mem hs]
  | get other => exact hready
  | list stage? => exact hready
  | builtins stage => exact hready
  | load => exact hready
  | clear => exact h.elim

end Operation

/-! ### Rows of operations -/

/-- The registry after operations one after another. -/
def afterAll (r : Registry) (ops : List Operation) : Registry :=
  ops.foldl Operation.apply r

theorem nodup_names_afterAll {r : Registry} (ops : List Operation) (h : r.names.Nodup) :
    (r.afterAll ops).names.Nodup := by
  induction ops generalizing r with
  | nil => exact h
  | cons op rest ih => exact ih (op.nodup_names_apply h)

theorem get?_afterAll {r : Registry} {name : String} {ops : List Operation}
    (h : ∀ op ∈ ops, op.Spares name) : (r.afterAll ops).get? name = r.get? name := by
  induction ops generalizing r with
  | nil => rfl
  | cons op rest ih =>
    obtain ⟨hop, hrest⟩ := List.forall_mem_cons.mp h
    exact (ih hrest).trans (Operation.get?_apply hop)

/-- **A registration is found again, unless it is of the bundled transform's name and comes before that
transform is loaded.**  Let operations on an empty registry end with a registration and with others that
neither register its name again nor clear the registry.

* If the name is another one, or the bundled transform was loaded before the registration, the registry
  has the entry that was registered, and lists its name once, for its stage only.
* Otherwise the registry has the bundled transform's entry in its place: loading replaces the entry. -/
theorem registration_is_found_unless_early (before later : List Operation) (name stage : String)
    (builtin : Bool) (t : Transform) (hstage : stage ∈ stageNames)
    (hlater : ∀ op ∈ later, op.Spares name) :
    let r := afterAll {} (before ++ .register name stage builtin t :: later)
    (name ≠ imageAutolinkName ∨ (afterAll {} before).loaded = true →
      r.Shows ⟨name, stage, rename name t, builtin⟩) ∧
    (name = imageAutolinkName → (afterAll {} before).loaded = false → r.Shows bundledEntry) := by
  intro r
  have hnodup : r.names.Nodup := nodup_names_afterAll _ List.nodup_nil
  have hget : r.get? name =
      (Operation.apply (afterAll {} before) (.register name stage builtin t)).get? name := by
    show (afterAll {} (before ++ .register name stage builtin t :: later)).get? name = _
    rw [afterAll, List.foldl_append]
    exact get?_afterAll hlater
  rw [Operation.apply_register hstage, get?_insert] at hget
  refine ⟨fun h => shows_of_get? hnodup ?_, fun hb hl => shows_of_get? hnodup ?_⟩
  · rw [hget, if_pos]
    refine ⟨rfl, ?_⟩
    rintro ⟨hb, hl⟩
    rcases h with hne | hl'
    · exact hne hb
    · rw [hl] at hl'
      cases hl'
  · subst hb
    show r.get? imageAutolinkName = some bundledEntry
    rw [hget, if_neg fun h => h.2 ⟨rfl, hl⟩, get?_eq, if_pos ⟨rfl, hl⟩]

/-- A transform that leaves everything as it is. -/
def onlooker : Transform where
  name := "onlooker"
  apply d c := ⟨d, c, .nothing⟩

/-- Operations of all kinds that spare the name of the bundled transform; the first of them fails. -/
def sparing : List Operation :=
  [.register imageAutolinkName "stage3" true onlooker, .register "other" "stage1" true onlooker,
    .builtins "stage1", .load, .get "other"]

/-- An entry in the place of the bundled transform, registered once the registry had been asked, stays
there. -/
theorem registration_is_found_unless_early_asked :
    (∀ op ∈ sparing, op.Spares imageAutolinkName) ∧
    (afterAll {} ([.clear, .list none] ++
      .register imageAutolinkName "stage2" false onlooker :: sparing)).Shows
        ⟨imageAutolinkName, "stage2", rename imageAutolinkName onlooker, false⟩ := by
  have hspares : ∀ op ∈ sparing, op.Spares imageAutolinkName := by
    simp [sparing, Operation.Spares, stageNames, imageAutolinkName]
  have hstage : "stage2" ∈ stageNames := by decide
  exact ⟨hspares, (registration_is_found_unless_early [.clear, .list none] sparing
    imageAutolinkName "stage2" false onlooker hstage hspares).1 (.inr rfl)⟩

/-- An entry of the bundled transform's name is lost at the first look-up, if it is registered before. -/
theorem early_registration_is_replaced :
    let r := afterAll {} [.register imageAutolinkName "stage2" false onlooker]
    (r.get? imageAutolinkName).map (fun e => (e.stage, e.builtin)) = some ("stage1", true) ∧
      r.list (some "stage2") = [] := by
  decide

end Mdx.Registry
