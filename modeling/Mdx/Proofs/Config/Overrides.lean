import Mdx.Compiler.File
import Mdx.Proofs.Fault.Result

/-!
# Overrides with and without a configuration

Overrides make a configuration of their own, where every one of them is checked, or are laid over a
configuration that is given.  Over the default configuration the two ways should come to the same.

What a compiler takes from a configuration are the readings of its fields (`ReadsAs`).  They agree
exactly if the overrides are `Interchangeable`: field by field, the value that checking makes of an
override has to read like the override as it stands.  This fails for lists under their second name,
which is not known to the overlay; for a word that means no, which is no empty text; and for paths,
which checking makes of texts.
-/

namespace Mdx.Config

/-! ### Readings -/

/-- Two configurations that a compiler cannot tell apart. -/
structure ReadsAs (a b : Config) : Prop where
  stage1 : a.stage1.refs = b.stage1.refs
  stage2 : a.stage2.refs = b.stage2.refs
  builtins : a.builtins.truth = b.builtins.truth
  settings : a.settings = b.settings
  paths : a.paths.pathList = b.paths.pathList

theorem stageTransforms_congr {builtins builtins' : Field Bool}
    {field field' : Field (List TransformRef)} (hb : builtins.truth = builtins'.truth)
    (hf : field.refs = field'.refs) (r : Registry) (stage : String) :
    Compiler.stageTransforms r stage builtins field =
      Compiler.stageTransforms r stage builtins' field' := by
  rw [Compiler.stageTransforms, Compiler.stageTransforms, hb, hf]

/-- **Configurations that read alike make the same compiler.** -/
theorem ReadsAs.build_eq {a b : Config} (h : a.ReadsAs b) (r : Registry)
    (place : String → PluginPlace) (runtime : Option String) :
    Compiler.build r a place runtime = Compiler.build r b place runtime := by
  have hstage1 := stageTransforms_congr h.builtins h.stage1
  have hstage2 := stageTransforms_congr h.builtins h.stage2
  unfold Compiler.build
  simp only [h.paths, h.settings, hstage1, hstage2]

/-- Two ways to configure a call that read alike compile every text alike. -/
theorem ReadsAs.compileText_eq {a b : Config} {given? given?' : Option Config}
    {overrides : Arguments} (h : a.ReadsAs b) (ha : configure given? overrides = .ok a)
    (hb : configure given?' overrides = .ok b) (r : Registry) (log : Log)
    (place : String → PluginPlace) (text : String) :
    compileText r log given? overrides place text =
      compileText r log given?' overrides place text := by
  rw [compileText, compileText, ha, hb]
  simp only [h.build_eq]

/-! ### Single fields -/

section Field

variable {args : Arguments} {α : Type} {default v : α} {field : Field α}

/-- A checked field holds what the first of its names that is given says, or its default. -/
theorem checked_eq_ok {names : List String} {read : Argument → Option α}
    (h : checked args names default read = .ok field) :
    ∃ v : α, (names.findSome? fun name => args.lookup name).elim (some default) read = some v ∧
      field = .sound v := by
  unfold checked at h
  split at h
  next hnone =>
    cases h
    exact ⟨default, by rw [hnone]; rfl, rfl⟩
  next a ha =>
    split at h
    next v hv =>
      cases h
      exact ⟨v, by rw [ha]; exact hv, rfl⟩
    · cases h

/-- A field that its plain name leaves as it is, or sets to a readable value. -/
theorem overlaid_eq_sound {name : String} {read : Argument → Option α}
    (h : (args.lookup name).elim (some default) read = some v) :
    overlaid args name (.sound default) read = .sound v := by
  unfold overlaid
  split
  next hnone =>
    rw [hnone] at h
    exact congrArg Field.sound (Option.some.inj h)
  next a ha =>
    rw [ha] at h
    have hread : read a = some v := h
    rw [hread]

/-- A field with one name is the same either way, if what is given under that name is read alike. -/
theorem overlaid_eq_checked {name : String} {read read' : Argument → Option α}
    (h : checked args [name] default read = .ok field)
    (hread : ∀ a : Argument, args.lookup name = some a → read' a = read a) :
    overlaid args name (.sound default) read' = field := by
  obtain ⟨v, hv, rfl⟩ := checked_eq_ok h
  rw [List.findSome?_singleton] at hv
  refine overlaid_eq_sound ?_
  cases ha : args.lookup name with
  | none => rwa [ha] at hv
  | some a =>
    rw [ha] at hv
    exact (hread a ha).trans hv

end Field

/-- The list of transforms that is laid over the default under its plain name. -/
def laidRefs (args : Arguments) (name : String) : Field (List TransformRef) :=
  overlaid args name (.sound []) Argument.refs?

/-- A list under its second name, if there is one, reads like what the plain name gives. -/
def SameList (args : Arguments) (second name : String) : Prop :=
  ∀ a : Argument, args.lookup second = some a →
    ∃ items : List TransformRef, a.refs? = some items ∧ (laidRefs args name).refs = .ok items

section Fields

variable {args : Arguments}

theorem laidRefs_eq_of_none {second name : String} {field : Field (List TransformRef)}
    (h : checked args [second, name] [] Argument.refs? = .ok field)
    (hsecond : args.lookup second = none) : laidRefs args name = field := by
  obtain ⟨items, hitems, rfl⟩ := checked_eq_ok h
  refine overlaid_eq_sound ?_
  simpa [hsecond] using hitems

/-- **A list of transforms reads alike exactly if its second name says what the plain one does.** -/
theorem refs_eq_iff {second name : String} {field : Field (List TransformRef)}
    (h : checked args [second, name] [] Argument.refs? = .ok field) :
    field.refs = (laidRefs args name).refs ↔ SameList args second name := by
  cases hsecond : args.lookup second with
  | none =>
    rw [laidRefs_eq_of_none h hsecond]
    refine ⟨fun _ a ha => ?_, fun _ => rfl⟩
    rw [hsecond] at ha
    cases ha
  | some a =>
    obtain ⟨items, hitems, rfl⟩ := checked_eq_ok h
    have hread : a.refs? = some items := by simpa [hsecond] using hitems
    constructor
    · intro heq b hb
      rw [hsecond] at hb
      cases hb
      exact ⟨items, hread, heq.symm⟩
    · intro hsame
      obtain ⟨items', hitems', hlaid⟩ := hsame a hsecond
      rw [hread] at hitems'
      cases hitems'
      exact hlaid.symm

theorem wordTruth?_nil : Argument.wordTruth? [] = none := by
  decide

/-- **The switch reads alike exactly if it is given as no word that means no.**  Numbers and truth values
are empty just if they are false, but no word is empty. -/
theorem truth_eq_iff {name : String} {field : Field Bool}
    (h : checked args [name] true Argument.truth? = .ok field) :
    field.truth = (overlaid args name (.sound true) plainTruth?).truth ↔
      ∀ s : String, args.lookup name = some (.value (.str s)) →
        Argument.wordTruth? s.toList = some true := by
  obtain ⟨b, hb, rfl⟩ := checked_eq_ok h
  rw [List.findSome?_singleton] at hb
  unfold overlaid
  cases ha : args.lookup name with
  | none =>
    rw [ha] at hb
    cases hb
    simp
  | some a =>
    rw [ha] at hb
    have hread : a.truth? = some b := hb
    cases a with
    | refs items => cases hread
    | value v =>
      cases v with
      | null => cases hread
      | bool b' =>
        cases hread
        simp [plainTruth?]
      | int n =>
        rw [Argument.truth?] at hread
        by_cases h0 : n = 0
        · simp_all [plainTruth?, Field.truth, Json.isEmpty]
        · by_cases h1 : n = 1 <;> simp_all [plainTruth?, Field.truth, Json.isEmpty]
      | float x =>
        rw [Argument.truth?] at hread
        by_cases h0 : (x == 0.0) = true
        · simp_all [plainTruth?, Field.truth, Json.isEmpty]
        · by_cases h1 : (x == 1.0) = true <;> simp_all [plainTruth?, Field.truth, Json.isEmpty]
      | str s =>
        rw [Argument.truth?] at hread
        have hne : s.isEmpty = false := by
          cases hs : s.isEmpty with
          | false => rfl
          | true =>
            have hnil : s = "" := String.isEmpty_iff.mp hs
            rw [hnil] at hread
            cases wordTruth?_nil.symm.trans hread
        simp [plainTruth?, Field.truth, Json.isEmpty, hread, hne]
      | arr items => cases hread
      | obj members => cases hread

theorem textList?_eq_nil {items : List Json} (h : textList? items = some []) : items = [] := by
  cases items with
  | nil => rfl
  | cons item rest =>
    cases item with
    | str s =>
      obtain ⟨texts, -, hcons⟩ := Option.map_eq_some_iff.mp h
      cases hcons
    | _ => cases h

/-- An argument that checking makes a list of no paths of is laid over as such. -/
theorem noPaths?_of_nil {a : Argument} (h : a.paths? = some []) : noPaths? a = some [] := by
  cases a with
  | refs items =>
    cases items with
    | nil => rfl
    | cons item rest => cases h
  | value v =>
    cases v with
    | arr items =>
      obtain ⟨texts, htexts, hnil⟩ := Option.map_eq_some_iff.mp h
      rw [List.map_eq_nil_iff] at hnil
      subst hnil
      rw [textList?_eq_nil htexts]
      rfl
    | _ => cases h

theorem pathList_raw {a : Argument} {paths : List String} (h : a.paths? = some paths)
    (hne : paths ≠ []) :
    ∃ (v : Json) (cause : Failure), a = .value v ∧ noPaths? a = none ∧
      (Field.raw v : Field (List String)).pathList = .error cause := by
  cases a with
  | refs items =>
    cases items with
    | nil => exact absurd (Option.some.inj h).symm hne
    | cons item rest => cases h
  | value v =>
    cases v with
    | arr items =>
      cases items with
      | nil => exact absurd (Option.some.inj h).symm hne
      | cons item rest => exact ⟨_, _, rfl, rfl, rfl⟩
    | _ => cases h

/-- **Paths read alike exactly if there are none.** -/
theorem pathList_eq_iff {name : String} {field : Field (List String)}
    (h : checked args [name] [] Argument.paths? = .ok field) :
    field.pathList = (overlaid args name (.sound []) noPaths?).pathList ↔
      ∀ a : Argument, args.lookup name = some a → a.paths? = some [] := by
  obtain ⟨paths, hpaths, rfl⟩ := checked_eq_ok h
  rw [List.findSome?_singleton] at hpaths
  unfold overlaid
  cases ha : args.lookup name with
  | none =>
    rw [ha] at hpaths
    cases hpaths
    simp
  | some a =>
    rw [ha] at hpaths
    have hread : a.paths? = some paths := hpaths
    simp only [Option.some.injEq, forall_eq']
    by_cases hnil : paths = []
    · subst hnil
      rw [noPaths?_of_nil hread]
      exact ⟨fun _ => hread, fun _ => rfl⟩
    · obtain ⟨v, cause, rfl, hno, hraw⟩ := pathList_raw hread hnil
      rw [hno, hread]
      dsimp only
      rw [hraw]
      exact ⟨fun heq => (by cases heq), fun heq => absurd (Option.some.inj heq) hnil⟩

end Fields

/-! ### Whole configurations -/

/-- Overrides that checking leaves as they are, as far as a compiler can tell. -/
structure Interchangeable (args : Arguments) : Prop where
  stage1 : SameList args "stage1Transforms" "stage1_transforms"
  stage2 : SameList args "stage2Transforms" "stage2_transforms"
  builtins : ∀ s : String, args.lookup "builtin_transforms" = some (.value (.str s)) →
    Argument.wordTruth? s.toList = some true
  paths : ∀ a : Argument, args.lookup "plugin_paths" = some a → a.paths? = some []

theorem ofArguments_eq_ok {args : Arguments} {config : Config} (h : ofArguments args = .ok config) :
    checked args ["stage1Transforms", "stage1_transforms"] [] Argument.refs? = .ok config.stage1 ∧
    checked args ["stage2Transforms", "stage2_transforms"] [] Argument.refs? = .ok config.stage2 ∧
    checked args ["builtin_transforms"] true Argument.truth? = .ok config.builtins ∧
    checked args ["plugin_settings"] [] Argument.members? = .ok config.settings ∧
    checked args ["plugin_paths"] [] Argument.paths? = .ok config.paths := by
  rw [ofArguments] at h
  obtain ⟨stage1, hstage1, h⟩ := exists_ok_of_bind h
  obtain ⟨stage2, hstage2, h⟩ := exists_ok_of_bind h
  obtain ⟨builtins, hbuiltins, h⟩ := exists_ok_of_bind h
  obtain ⟨settings, hsettings, h⟩ := exists_ok_of_bind h
  obtain ⟨paths, hpaths, h⟩ := exists_ok_of_bind h
  cases h
  exact ⟨hstage1, hstage2, hbuiltins, hsettings, hpaths⟩

/-- **Overrides come to the same with and without the default configuration exactly if they are
interchangeable.**  Let overrides pass the check.

* The configuration that they make and the default one with them laid over read alike exactly if no
  list of transforms has another value under its second name, the switch is given as no word for no, and
  no path is given.
* If so, every text is compiled alike, with the same effect on the registry and the log.
* If moreover the second names are not used and the switch is given as a truth value, the two
  configurations are equal in every field. -/
theorem overrides_read_alike_iff (overrides : Arguments) (config : Config)
    (h : configure none overrides = .ok config) :
    ∃ laid : Config, configure (some {}) overrides = .ok laid ∧
      (config.ReadsAs laid ↔ Interchangeable overrides) ∧
      (Interchangeable overrides →
        ∀ (r : Registry) (log : Log) (place : String → PluginPlace) (text : String),
          compileText r log none overrides place text =
            compileText r log (some {}) overrides place text) ∧
      (Interchangeable overrides → overrides.lookup "stage1Transforms" = none →
        overrides.lookup "stage2Transforms" = none →
        (∀ a : Argument, overrides.lookup "builtin_transforms" = some a →
          ∃ b : Bool, a = .value (.bool b)) → laid = config) := by
  obtain ⟨hstage1, hstage2, hbuiltins, hsettings, hpaths⟩ := ofArguments_eq_ok h
  have hmembers : (overlay {} overrides).settings = config.settings :=
    overlaid_eq_checked hsettings fun _ _ => rfl
  have hreads : config.ReadsAs (overlay {} overrides) ↔ Interchangeable overrides := by
    constructor
    · intro hsame
      exact ⟨(refs_eq_iff hstage1).mp hsame.stage1, (refs_eq_iff hstage2).mp hsame.stage2,
        (truth_eq_iff hbuiltins).mp hsame.builtins, (pathList_eq_iff hpaths).mp hsame.paths⟩
    · intro hplain
      exact ⟨(refs_eq_iff hstage1).mpr hplain.stage1, (refs_eq_iff hstage2).mpr hplain.stage2,
        (truth_eq_iff hbuiltins).mpr hplain.builtins, hmembers.symm,
        (pathList_eq_iff hpaths).mpr hplain.paths⟩
  refine ⟨overlay {} overrides, rfl, hreads, fun hplain => ?_, fun hplain hno1 hno2 hbool => ?_⟩
  · exact (hreads.mpr hplain).compileText_eq h rfl
  · have hswitch : (overlay {} overrides).builtins = config.builtins := by
      refine overlaid_eq_checked hbuiltins fun a ha => ?_
      obtain ⟨b, rfl⟩ := hbool a ha
      rfl
    have hempty : (overlay {} overrides).paths = config.paths := by
      refine overlaid_eq_checked hpaths fun a ha => ?_
      rw [noPaths?_of_nil (hplain.paths a ha), hplain.paths a ha]
    have hfirst : (overlay {} overrides).stage1 = config.stage1 := laidRefs_eq_of_none hstage1 hno1
    have hsecond : (overlay {} overrides).stage2 = config.stage2 := laidRefs_eq_of_none hstage2 hno2
    calc overlay {} overrides
        = ⟨config.stage1, config.stage2, config.builtins, config.settings, config.paths⟩ := by
          rw [← hfirst, ← hsecond, ← hswitch, ← hmembers, ← hempty]
      _ = config := rfl

/-- Overrides of every field: a list under both of its names, and a number for the switch. -/
def mixedOverrides : Arguments :=
  [("stage1_transforms", .value (.arr [.str "image-autolink"])),
   ("stage1Transforms", .value (.arr [.str "image-autolink"])),
   ("stage2_transforms", .refs []), ("builtin_transforms", .value (.int 0)),
   ("plugin_settings", .value (.obj [("depth", .int 2)])), ("plugin_paths", .value (.arr []))]

/-- A number for the switch is no truth value, but reads as one. -/
theorem overrides_read_alike_iff_mixed :
    Interchangeable mixedOverrides ∧
      ∃ config laid : Config, configure none mixedOverrides = .ok config ∧
        configure (some {}) mixedOverrides = .ok laid ∧ config.ReadsAs laid ∧
        compileText {} {} none mixedOverrides (fun _ => .missing) "a" =
          compileText {} {} (some {}) mixedOverrides (fun _ => .missing) "a" := by
  have hplain : Interchangeable mixedOverrides := by
    refine ⟨?_, ?_, ?_, ?_⟩
    · rintro a ⟨⟩
      exact ⟨_, rfl, rfl⟩
    · rintro a ⟨⟩
    · rintro s ⟨⟩
    · rintro a ⟨⟩
      rfl
  obtain ⟨laid, hlaid, hiff, hcompile, -⟩ := overrides_read_alike_iff mixedOverrides _ rfl
  exact ⟨hplain, _, laid, rfl, hlaid, hiff.mpr hplain, hcompile hplain {} {} _ "a"⟩

/-- A word for no switches the built-in transforms off in a configuration of its own, and leaves them on
over the default configuration; a list under its second name is taken there, and lost here. -/
theorem word_and_second_name_are_lost :
    let overrides : Arguments :=
      [("builtin_transforms", .value (.str "no")), ("stage1Transforms", .value (.arr [.str "a"]))]
    (configure none overrides).toOption.map (fun config =>
        (config.builtins.truth, (config.stage1.refs.toOption.map List.length))) =
      some (false, some 1) ∧
    (configure (some {}) overrides).toOption.map (fun config =>
        (config.builtins.truth, (config.stage1.refs.toOption.map List.length))) =
      some (true, some 0) := by
  decide +kernel

end Mdx.Config
