import Mathlib.Data.List.Forall2
import Mdx.Compiler.Basic
import Mdx.Proofs.Trace.Nesting
import Mdx.Proofs.Transform.Sequence

/-!
# Messages and the trace of a compilation

A message is recorded among the messages and as a warning of the trace.  If the transforms report
messages and leave the context alone otherwise, the two records agree over a whole compilation.

The invariant is `Tells`: the trace is nested, and its warnings tell the messages, one by one and in
order.  What the phases and the run of transforms record keeps it (`Tells.mapTrace`), and so does a
report, if a phase of transforms is open and the context names its stage (`Running.report`).  From this
the run of a stage (`Through.running`) and the compilation as a whole follow.
-/

namespace Mdx

/-! ### Reports -/

/-- Something to report: a reason, and the place that it is about. -/
structure Report where
  reason : String
  place : Option Position

namespace Context

/-- Reports messages one after another. -/
def reportAll (c : Context) (reports : List Report) : Context :=
  reports.foldl (fun c r => c.message r.reason r.place) c

theorem messages_reportAll (c : Context) (reports : List Report) :
    (c.reportAll reports).messages =
      c.messages ++ reports.map fun r => c.newMessage r.reason r.place := by
  induction reports generalizing c with
  | nil => simp [reportAll]
  | cons r rest ih =>
    calc (c.reportAll (r :: rest)).messages
        = (c.messages ++ [c.newMessage r.reason r.place]) ++
            rest.map (fun r => c.newMessage r.reason r.place) := ih (c.message r.reason r.place)
      _ = c.messages ++ (r :: rest).map fun r => c.newMessage r.reason r.place := by simp

end Context

/-- The transform changes its context by reporting messages, and in no other way. -/
def Transform.OnlyReports (t : Transform) : Prop :=
  ∀ (d : Draft) (c : Context), ∃ reports : List Report,
    (t.apply d c).context = c.reportAll reports

/-- The messages that were recorded during a call. -/
def Call.recorded (k : Call) : List Message :=
  k.outcome.context.messages.drop k.before.context.messages.length

/-! ### Warnings -/

/-- Whether an event is a warning. -/
def Event.isWarning (e : Event) : Bool :=
  match e.happening with
  | .warning _ _ => true
  | _ => false

/-- The warnings of a trace. -/
def Trace.warnings (t : Trace) : List Event :=
  t.events.filter Event.isWarning

/-- The phases in which the transforms of the stages run. -/
def transformPhases : List (String × String) :=
  [("stage1", "Stage 1 Transforms"), ("stage2", "Stage 2 Transforms")]

/-- The event is the warning of a message: it has the reason and the particulars of the message, and
belongs to the start of the phase in which the transforms of the message's stage run. -/
structure Told (events : List Event) (m : Message) (e : Event) : Prop where
  sort : e.happening.sort = "warning"
  reason : e.happening.description = m.reason
  stage : e.happening.metadata.lookup "stage" = some (m.stage.elim .null .str)
  transform : e.happening.metadata.lookup "transform" = some (m.transform.elim .null .str)
  line : e.happening.metadata.lookup "line" = some (m.line.elim .null .int)
  column : e.happening.metadata.lookup "column" = some (m.column.elim .null .int)
  parent : ∃ (number : Nat) (stage phase detail : String) (outer : Option Nat),
    e.parent = some number ∧ m.stage = some stage ∧ (stage, phase) ∈ transformPhases ∧
      events[number]? = some ⟨.phaseStart phase detail, outer⟩

/-- Events keep their numbers when others are recorded after them. -/
theorem getElem?_of_prefix {events events' : List Event} {number : Nat} {e : Event}
    (hp : events <+: events') (h : events[number]? = some e) : events'[number]? = some e := by
  obtain ⟨more, rfl⟩ := hp
  obtain ⟨hlt, -⟩ := List.getElem?_eq_some_iff.mp h
  rw [List.getElem?_append_left hlt, h]

theorem Told.mono {events events' : List Event} {m : Message} {e : Event} (h : Told events m e)
    (hp : events <+: events') : Told events' m e := by
  obtain ⟨number, stage, phase, detail, outer, hparent, hstage, hmem, hstart⟩ := h.parent
  have hstart' := getElem?_of_prefix hp hstart
  exact { h with
    parent := ⟨number, stage, phase, detail, outer, hparent, hstage, hmem, hstart'⟩ }

theorem Told.map_lookup {events warnings : List Event} {messages : List Message}
    (h : List.Forall₂ (Told events) messages warnings) :
    warnings.map (fun e =>
        ["stage", "transform", "line", "column"].map fun key => e.happening.metadata.lookup key) =
      messages.map fun m => [some (m.stage.elim .null .str), some (m.transform.elim .null .str),
        some (m.line.elim .null .int), some (m.column.elim .null .int)] := by
  induction h with
  | nil => rfl
  | cons hme h ih =>
    rw [List.map_cons, List.map_cons, ih]
    simp only [List.map_cons, List.map_nil, hme.stage, hme.transform, hme.line, hme.column]

/-- A context that keeps a trace which begins with an event, is nested, and tells the messages. -/
structure Tells (first : Event) (c : Context) (t : Trace) : Prop where
  trace : c.trace = some t
  begins : t.events.head? = some first
  nested : t.Nested
  told : List.Forall₂ (Told t.events) c.messages t.warnings

namespace Tells

variable {first : Event} {c : Context} {t : Trace}

theorem mapTrace {f : Trace → Trace} (h : Tells first c t) (hn : (f t).Nested) (more : List Event)
    (hmore : (f t).events = t.events ++ more) (hplain : more.filter Event.isWarning = []) :
    Tells first (c.mapTrace f) (f t) := by
  have hbegins : (f t).events.head? = some first := by
    rw [hmore, List.head?_append, h.begins, Option.some_or]
  refine ⟨by rw [Context.mapTrace, h.trace]; rfl, hbegins, hn, ?_⟩
  have hwarnings : (f t).warnings = t.warnings := by
    rw [Trace.warnings, hmore, List.filter_append, hplain, List.append_nil]
    rfl
  rw [hwarnings]
  exact h.told.imp fun m e hme => hme.mono ⟨more, hmore.symm⟩

theorem startPhase (h : Tells first c t) (name detail : String) :
    Tells first (c.mapTrace fun t => t.startPhase name detail) (t.startPhase name detail) :=
  h.mapTrace (h.nested.startPhase name detail) _ rfl rfl

theorem record {happening : Happening} (h : Tells first c t) (hp : happening.isPlain = true)
    (hw : Event.isWarning ⟨happening, t.openPhases.head?⟩ = false) :
    Tells first (c.mapTrace fun t => t.record happening) (t.record happening) := by
  refine h.mapTrace (h.nested.record hp) _ rfl ?_
  rw [List.filter_cons_of_neg (by rw [hw]; exact Bool.false_ne_true), List.filter_nil]

theorem endPhase (h : Tells first c t) : Tells first (c.mapTrace Trace.endPhase) t.endPhase := by
  cases hopen : t.openPhases with
  | nil =>
    have hsame : t.endPhase = t := Trace.endPhase_of_nil hopen
    exact h.mapTrace h.nested.endPhase [] (by rw [hsame, List.append_nil]) rfl
  | cons phase rest =>
    refine h.mapTrace h.nested.endPhase [⟨.phaseEnd, some phase⟩] ?_ rfl
    rw [Trace.endPhase, hopen]

theorem congr {c' : Context} (h : Tells first c t) (htrace : c'.trace = c.trace)
    (hmessages : c'.messages = c.messages) : Tells first c' t :=
  ⟨htrace.trans h.trace, h.begins, h.nested, hmessages ▸ h.told⟩

end Tells

/-! ### Transforms that report -/

/-- A context in a phase of transforms: it names the stage, and the innermost of the open phases is the
one in which the stage's transforms run. -/
structure Running (first : Event) (stage : String) (phases : List Nat) (c : Context) (t : Trace) :
    Prop extends Tells first c t where
  stage_eq : c.stage = some stage
  open_eq : t.openPhases = phases
  started : ∃ (number : Nat) (phase detail : String) (outer : Option Nat),
    phases.head? = some number ∧ (stage, phase) ∈ transformPhases ∧
      t.events[number]? = some ⟨.phaseStart phase detail, outer⟩

section Running

variable {first : Event} {stage : String} {phases : List Nat} {c : Context} {t : Trace}

theorem Running.congr {c' : Context} (h : Running first stage phases c t) (htrace : c'.trace = c.trace)
    (hmessages : c'.messages = c.messages) (hstage : c'.stage = c.stage) :
    Running first stage phases c' t :=
  { h.toTells.congr htrace hmessages with
    stage_eq := hstage.trans h.stage_eq
    open_eq := h.open_eq
    started := h.started }

theorem Message.ofText?_eq (text : Option String) : ofText? text = text.elim .null .str := by
  cases text <;> rfl

theorem Message.ofNumber?_eq (number : Option Int) : ofNumber? number = number.elim .null .int := by
  cases number <;> rfl

/-- **A report adds a message and its warning.** -/
theorem Running.report (h : Running first stage phases c t) (reason : String) (place : Option Position) :
    ∃ t' : Trace, Running first stage phases (c.message reason place) t' := by
  let m := c.newMessage reason place
  let e : Event := ⟨.warning reason m.origin, t.openPhases.head?⟩
  obtain ⟨number, phase, detail, outer, hhead, hmem, hstart⟩ := h.started
  have hstart' : (t.events ++ [e])[number]? = some ⟨.phaseStart phase detail, outer⟩ :=
    getElem?_of_prefix (List.prefix_append _ _) hstart
  have hnew : Told (t.events ++ [e]) m e := by
    refine ⟨rfl, rfl, congrArg some (Message.ofText?_eq _), congrArg some (Message.ofText?_eq _),
      congrArg some (Message.ofNumber?_eq _), congrArg some (Message.ofNumber?_eq _),
      number, stage, phase, detail, outer, ?_, h.stage_eq, hmem, hstart'⟩
    show t.openPhases.head? = some number
    rw [h.open_eq, hhead]
  have hold : List.Forall₂ (Told (t.events ++ [e])) c.messages t.warnings :=
    h.told.imp fun m e hme => hme.mono (List.prefix_append _ _)
  have hwarnings : (t.warning reason m.origin).warnings = t.warnings ++ [e] := by
    show (t.events ++ [e]).filter Event.isWarning = _
    rw [List.filter_append]
    rfl
  refine ⟨t.warning reason m.origin,
    { trace := ?_, begins := ?_, nested := h.nested.record rfl, told := ?_, stage_eq := h.stage_eq,
      open_eq := h.open_eq, started := ⟨number, phase, detail, outer, hhead, hmem, hstart'⟩ }⟩
  · show c.trace.map _ = _
    rw [h.trace]
    rfl
  · show (t.events ++ [e]).head? = some first
    rw [List.head?_append, h.begins, Option.some_or]
  · rw [hwarnings]
    exact List.rel_append hold (.cons hnew .nil)

theorem Running.reportAll (h : Running first stage phases c t) (reports : List Report) :
    ∃ t' : Trace, Running first stage phases (c.reportAll reports) t' := by
  induction reports generalizing c t with
  | nil => exact ⟨t, h⟩
  | cons r rest ih =>
    obtain ⟨t', h'⟩ := h.report r.reason r.place
    exact ih h'

theorem Running.applied (h : Running first stage phases c t) (index : Nat) (name : String)
    (replaced : Bool) :
    Running first stage phases (c.mapTrace fun t => t.applied stage index name replaced)
      (t.applied stage index name replaced) := by
  obtain ⟨number, phase, detail, outer, hhead, hmem, hstart⟩ := h.started
  refine { h.toTells.record rfl rfl with
    stage_eq := h.stage_eq
    open_eq := h.open_eq
    started := ⟨number, phase, detail, outer, hhead, hmem, ?_⟩ }
  exact getElem?_of_prefix (List.prefix_append _ _) hstart

end Running

section Calls

variable {first : Event} {stage : String} {phases : List Nat} {t : Trace}

theorem Call.recorded_eq {k : Call} {reports : List Report}
    (h : k.outcome.context = k.context.reportAll reports) :
    k.recorded = reports.map fun r => k.context.newMessage r.reason r.place := by
  rw [recorded, h, Context.messages_reportAll]
  exact List.drop_left

/-- After a call the context is as the transform left it, but for the log, the trace and the name. -/
theorem Call.context_after (k : Call) (stage : String) :
    (k.after stage).context.messages = k.outcome.context.messages ∧
      (k.after stage).context.stage = k.outcome.context.stage := by
  rw [after, Run.noteApplied, Run.mapTrace]
  split <;> unfold goesOn <;> split <;> exact ⟨rfl, rfl⟩

/-- In a run that records in the trace of the context, the event of a call is added there. -/
theorem Call.trace_after {k : Call} (stage : String) (h : k.before.tracer = .shared) :
    (k.after stage).context.trace =
      k.outcome.context.trace.map fun t => t.record (k.event stage) := by
  have hshared : ∀ {r : Run}, r.tracer = .shared → r.trace? = r.context.trace := by
    intro r hr
    rw [Run.trace?, hr]
  rw [← hshared ((k.tracer_after stage).mpr h), k.trace?_after, hshared (k.tracer_left.trans h)]
  rfl

/-- **A call of a transform that only reports.**  The invariant is kept, and each message of the call
has the stage and the name of the transform. -/
theorem Call.running {k : Call} (hk : k.transform.OnlyReports) (hshared : k.before.tracer = .shared)
    (h : Running first stage phases k.before.context t) :
    (∃ t' : Trace, Running first stage phases (k.after stage).context t') ∧
      (k.after stage).context.messages = k.before.context.messages ++ k.recorded ∧
      ∀ m ∈ k.recorded, m.stage = some stage ∧ m.transform = some k.transform.name := by
  obtain ⟨reports, hreports⟩ := hk k.before.current k.context
  have houtcome : k.outcome.context = k.context.reportAll reports := hreports
  obtain ⟨hafter, hstage⟩ := k.context_after stage
  refine ⟨?_, ?_, fun m hm => ?_⟩
  · have hbefore : Running first stage phases k.context t := h.congr rfl rfl rfl
    obtain ⟨t', h'⟩ := hbefore.reportAll reports
    rw [← houtcome] at h'
    exact ⟨_, (h'.applied k.index k.transform.name k.replaces).congr (k.trace_after stage hshared)
      hafter hstage⟩
  · rw [hafter, recorded_eq houtcome, houtcome, Context.messages_reportAll]
    rfl
  · rw [recorded_eq houtcome] at hm
    obtain ⟨r, -, rfl⟩ := List.mem_map.mp hm
    exact ⟨h.stage_eq, rfl⟩

/-- **A row of calls of transforms that only report.**  The invariant is kept, and the messages that are
added are those of the calls, in order. -/
theorem Through.running {index : Nat} {r last : Run} {calls : List Call}
    (h : Through stage index r calls last) (hcalls : ∀ k ∈ calls, k.transform.OnlyReports)
    (hshared : r.tracer = .shared) (hr : Running first stage phases r.context t) :
    (∃ t' : Trace, Running first stage phases last.context t') ∧
      last.context.messages = r.context.messages ++ calls.flatMap Call.recorded ∧
      ∀ k ∈ calls, ∀ m ∈ k.recorded, m.stage = some stage ∧ m.transform = some k.transform.name := by
  induction h generalizing t with
  | nil => exact ⟨⟨t, hr⟩, by simp, by simp⟩
  | @cons index transform r last calls hok h ih =>
    obtain ⟨hone, hrest⟩ := List.forall_mem_cons.mp hcalls
    obtain ⟨⟨t', h'⟩, hmessages, hnamed⟩ := Call.running hone hshared hr
    obtain ⟨hlast, hmore, hall⟩ := ih hrest ((Call.tracer_after stage _).mpr hshared) h'
    refine ⟨hlast, ?_, List.forall_mem_cons.mpr ⟨hnamed, hall⟩⟩
    rw [hmore, hmessages, List.flatMap_cons, List.append_assoc]

end Calls

/-! ### Phases of a compilation -/

namespace Session

variable {α β : Type} {first : Event} {c c' : Context} {t : Trace}

theorem exists_of_run_bind {x : Session α} {f : α → Session β} {b : β}
    (h : (x >>= f).run.run c = (.ok b, c')) :
    ∃ (a : α) (c₁ : Context), x.run.run c = (.ok a, c₁) ∧ (f a).run.run c₁ = (.ok b, c') := by
  have hbind : (x >>= f).run.run c =
      (ExceptT.bindCont f (x.run.run c).1).run (x.run.run c).2 := rfl
  rw [hbind] at h
  cases hx : x.run.run c with
  | mk result c₁ =>
    rw [hx] at h
    cases result with
    | error e => cases h
    | ok a => exact ⟨a, c₁, rfl, h⟩

theorem exists_of_ofStage {x : Except Failure α} {a : α}
    (h : (ofStage x).run.run c = (.ok a, c')) : x = .ok a ∧ c' = c := by
  cases x with
  | error e => cases h
  | ok a' =>
    cases h
    exact ⟨rfl, rfl⟩

theorem exists_of_ofCheck {x : Except StructureError α} {a : α}
    (h : (ofCheck x).run.run c = (.ok a, c')) : x = .ok a ∧ c' = c := by
  cases x with
  | error e => cases h
  | ok a' =>
    cases h
    exact ⟨rfl, rfl⟩

theorem exists_of_transformed {stage : String} {transforms : List Transform}
    {vocabulary : List String} {tree changed : Node}
    (h : (transformed stage transforms vocabulary tree).run.run c = (.ok changed, c')) :
    ∃ last : Run, runTransforms .shared stage transforms (.ofNode tree) c = (last, none) ∧
      changed = last.current.toNode ∧ c' = last.context := by
  rw [transformed] at h
  obtain ⟨c₁, c₂, hc, h⟩ := exists_of_run_bind h
  cases hc
  cases hrun : runTransforms .shared stage transforms (.ofNode tree) c with
  | mk last error? =>
    rw [hrun] at h
    dsimp only at h
    cases error? with
    | some e => cases h
    | none =>
      dsimp only at h
      cases hcheck : last.current.validate vocabulary (stage ++ " transforms") with
      | error e =>
        rw [hcheck] at h
        cases h
      | ok u =>
        rw [hcheck] at h
        cases h
        exact ⟨last, rfl, rfl, rfl⟩

/-- A phase that makes one tree of another leaves the messages and the open phases as they are. -/
theorem exists_of_phase {x : Session Node} {P : Node → Prop} {name detail label : String}
    {before after : Node → String} {f : Node → Session β} {b : β}
    (hx : ∀ {c c' : Context} {a : Node}, x.run.run c = (.ok a, c') → P a ∧ c' = c)
    (ht : Tells first c t)
    (h : (do
      startPhase name detail
      let a ← x
      changed label (before a) (after a)
      endPhase
      f a : Session β).run.run c = (.ok b, c')) :
    ∃ (a : Node) (c₁ : Context) (t₁ : Trace), P a ∧ Tells first c₁ t₁ ∧
      t₁.openPhases = t.openPhases ∧ c₁.messages = c.messages ∧
      (f a).run.run c₁ = (.ok b, c') := by
  obtain ⟨_, c₁, hstart, h⟩ := exists_of_run_bind h
  cases hstart
  obtain ⟨a, c₂, ha, h⟩ := exists_of_run_bind h
  obtain ⟨hP, rfl⟩ := hx ha
  let happening : Happening := .changed label (before a) (after a)
  have hstarted := ht.startPhase name detail
  have hended := (hstarted.record (show happening.isPlain = true from rfl) rfl).endPhase
  exact ⟨a, _, _, hP, hended, rfl, rfl, h⟩

end Session

/-- **The transforms of a stage.**  The calls of a run on a tree, one for each of the transforms: they all
come through, and each message of a call has the stage and the name of the transform that is called. -/
structure StageCalls (stage : String) (transforms : List Transform) (tree : Node) (calls : List Call)
    (last : Run) : Prop where
  row : ∃ c : Context, Through stage 0 (Run.start .shared stage (.ofNode tree) c) calls last
  transforms_eq : calls.map Call.transform = transforms
  named : ∀ k ∈ calls, ∀ m ∈ k.recorded, m.stage = some stage ∧ m.transform = some k.transform.name

namespace Session

variable {β : Type} {first : Event} {c c' : Context} {t : Trace}

/-- A phase of transforms that only report adds the messages of their calls. -/
theorem exists_of_transformPhase {stage phase detail : String} {transforms : List Transform}
    {vocabulary : List String} {tree : Node} {f : Node → Session β} {b : β}
    (hphase : (stage, phase) ∈ transformPhases) (hreports : ∀ u ∈ transforms, u.OnlyReports)
    (ht : Tells first c t)
    (h : (do
      startPhase phase detail
      let a ← transformed stage transforms vocabulary tree
      endPhase
      f a : Session β).run.run c = (.ok b, c')) :
    ∃ (calls : List Call) (last : Run) (c₁ : Context) (t₁ : Trace),
      StageCalls stage transforms tree calls last ∧ Tells first c₁ t₁ ∧
      t₁.openPhases = t.openPhases ∧ c₁.messages = c.messages ++ calls.flatMap Call.recorded ∧
      (f last.current.toNode).run.run c₁ = (.ok b, c') := by
  obtain ⟨_, c₁, hstart, h⟩ := exists_of_run_bind h
  cases hstart
  obtain ⟨a, c₂, ha, hrest⟩ := exists_of_run_bind h
  obtain ⟨last, hrun, rfl, rfl⟩ := exists_of_transformed ha
  obtain ⟨calls, rfl, hthrough⟩ := steps_eq_none_iff.mp hrun
  have hstarted := ht.startPhase phase detail
  have hrunning : Running first stage (t.startPhase phase detail).openPhases
      { c.mapTrace fun t => t.startPhase phase detail with stage := some stage }
      (t.startPhase phase detail) :=
    { hstarted.congr rfl rfl with
      stage_eq := rfl
      open_eq := rfl
      started := ⟨t.events.length, phase, detail, t.openPhases.head?, rfl, hphase,
        List.getElem?_concat_length⟩ }
  have honly : ∀ k ∈ calls, k.transform.OnlyReports := fun k hk =>
    hreports k.transform (List.mem_map_of_mem hk)
  obtain ⟨⟨t', ht'⟩, hmessages, hnamed⟩ := hthrough.running honly rfl hrunning
  have hopen : t'.endPhase.openPhases = t.openPhases := by
    have hcons : t'.openPhases = t.events.length :: t.openPhases := ht'.open_eq
    rw [Trace.endPhase, hcons]
  exact ⟨calls, last, _, _, ⟨⟨_, hthrough⟩, rfl, hnamed⟩, ht'.toTells.endPhase, hopen, hmessages,
    hrest⟩

end Session

namespace Compiler

/-- **The phases of a compilation.** -/
theorem exists_of_phases {c : Compiler} {text code : String} {tree : Node} {first : Event}
    {start context : Context} {t : Trace} (hreports : ∀ u ∈ c.stage1 ++ c.stage2, u.OnlyReports)
    (ht : Tells first start t)
    (h : (c.phases text).run.run start = (.ok (code, tree), context)) :
    ∃ (generic extended markup : Node) (calls₁ calls₂ : List Call) (last₁ last₂ : Run) (t' : Trace),
      Markdown.parse text.toList = .ok generic ∧
      Extended.ofGeneric (some text.toList) generic = .ok extended ∧
      StageCalls "stage1" c.stage1 extended calls₁ last₁ ∧
      Markup.ofExtended last₁.current.toNode = .ok markup ∧
      StageCalls "stage2" c.stage2 markup calls₂ last₂ ∧ tree = last₂.current.toNode ∧
      Tells first context t' ∧ t'.openPhases = t.openPhases ∧
      context.messages =
        start.messages ++ (calls₁.flatMap Call.recorded ++ calls₂.flatMap Call.recorded) := by
  have hreports₁ : ∀ u ∈ c.stage1, u.OnlyReports := fun u hu =>
    hreports u (List.mem_append_left _ hu)
  have hreports₂ : ∀ u ∈ c.stage2, u.OnlyReports := fun u hu =>
    hreports u (List.mem_append_right _ hu)
  rw [phases] at h
  obtain ⟨generic, c₁, t₁, hgeneric, ht₁, hopen₁, hm₁, h⟩ :=
    Session.exists_of_phase Session.exists_of_ofStage ht h
  obtain ⟨extended, c₂, t₂, hextended, ht₂, hopen₂, hm₂, h⟩ :=
    Session.exists_of_phase Session.exists_of_ofCheck ht₁ h
  obtain ⟨calls₁, last₁, c₃, t₃, hcalls₁, ht₃, hopen₃, hm₃, h⟩ :=
    Session.exists_of_transformPhase (by decide) hreports₁ ht₂ h
  obtain ⟨markup, c₄, t₄, hmarkup, ht₄, hopen₄, hm₄, h⟩ :=
    Session.exists_of_phase Session.exists_of_ofStage ht₃ h
  obtain ⟨calls₂, last₂, c₅, t₅, hcalls₂, ht₅, hopen₅, hm₅, h⟩ :=
    Session.exists_of_transformPhase (by decide) hreports₂ ht₄ h
  obtain ⟨_, c₆, hstart, h⟩ := Session.exists_of_run_bind h
  cases hstart
  obtain ⟨written, c₆, hwritten, h⟩ := Session.exists_of_run_bind h
  obtain ⟨-, rfl⟩ := Session.exists_of_ofStage hwritten
  cases h
  have ht₆ := (ht₅.startPhase "Codegen" "Markup tree -> JSX").endPhase
  refine ⟨generic, extended, markup, calls₁, calls₂, last₁, last₂, _, hgeneric, hextended, hcalls₁,
    hmarkup, hcalls₂, rfl, ht₆, ?_, ?_⟩
  · show t₅.openPhases = t.openPhases
    rw [hopen₅, hopen₄, hopen₃, hopen₂, hopen₁]
  · show c₅.messages = _
    rw [hm₅, hm₄, hm₃, hm₂, hm₁, List.append_assoc]

/-- **The messages and the trace of a compilation agree**, if its transforms only report.

* The messages and the warnings of the trace correspond one to one and in order.
* The messages are those of the calls of the first stage's transforms, and then those of the second's.
* Each start of a phase is closed once, the phases are nested, and the outermost is the compilation. -/
theorem messages_agree_with_trace {c : Compiler} {log after : Log} {text : String}
    {path? : Option String} {result : Compilation}
    (hreports : ∀ u ∈ c.stage1 ++ c.stage2, u.OnlyReports)
    (h : c.run log text path? = (.ok result, after)) :
    List.Forall₂ (Told result.trace.events) result.messages result.trace.warnings ∧
    (∃ (generic extended markup : Node) (calls₁ calls₂ : List Call) (last₁ last₂ : Run),
      Markdown.parse text.toList = .ok generic ∧
      Extended.ofGeneric (some text.toList) generic = .ok extended ∧
      StageCalls "stage1" c.stage1 extended calls₁ last₁ ∧
      Markup.ofExtended last₁.current.toNode = .ok markup ∧
      StageCalls "stage2" c.stage2 markup calls₂ last₂ ∧ result.tree = last₂.current.toNode ∧
      result.messages = calls₁.flatMap Call.recorded ++ calls₂.flatMap Call.recorded) ∧
    (∃ inner : List Event, result.trace.events =
      ⟨.phaseStart "Compile" (path?.getD "<string>"), none⟩ :: inner ++ [⟨.phaseEnd, some 0⟩]) ∧
    Trace.replayFrom [] 0 result.trace.events = some [] ∧
    ∀ (i : Nat) (e : Event), result.trace.events[i]? = some e → e.IsStart →
      result.trace.events.countP (Event.closes i) = 1 := by
  let label := path?.getD "<string>"
  let first : Event := ⟨.phaseStart "Compile" label, none⟩
  have hstart : Tells first
      ((c.newContext log text path?).mapTrace fun t => t.startPhase "Compile" label)
      (Trace.startPhase {} "Compile" label) :=
    ⟨rfl, rfl, Trace.nested_empty.startPhase "Compile" label, .nil⟩
  rw [run] at h
  dsimp only at h
  split at h
  · cases h
  · next code tree context hphases =>
    obtain ⟨generic, extended, markup, calls₁, calls₂, last₁, last₂, t, hgeneric, hextended, hcalls₁,
      hmarkup, hcalls₂, htree, ht, hopen, hmessages⟩ := exists_of_phases hreports hstart hphases
    cases h
    have hopen₀ : t.openPhases = [0] := hopen
    have hend : Tells first (context.mapTrace Trace.endPhase) t.endPhase := ht.endPhase
    have hevents : t.endPhase.events = t.events ++ [⟨.phaseEnd, some 0⟩] := by
      rw [Trace.endPhase, hopen₀]
    have hclosed : Trace.replayFrom [] 0 t.endPhase.events = some [] := by
      have hnested : Trace.replayFrom [] 0 t.endPhase.events = some t.endPhase.openPhases := hend.nested
      rw [hnested, Trace.endPhase, hopen₀]
    have htrace : (finished label context).trace.getD {} = t.endPhase := by
      show (context.mapTrace Trace.endPhase).trace.getD {} = t.endPhase
      rw [hend.trace, Option.getD_some]
    dsimp only
    rw [htrace]
    refine ⟨hend.told, ⟨generic, extended, markup, calls₁, calls₂, last₁, last₂, hgeneric, hextended,
      hcalls₁, hmarkup, hcalls₂, htree, hmessages⟩, ?_, hclosed, fun i e he hs => ?_⟩
    · obtain ⟨inner, hinner⟩ := List.head?_eq_some_iff.mp ht.begins
      exact ⟨inner, by rw [hevents, hinner]⟩
    · have hcount := Trace.countP_closes_of_start hclosed (by simp) he hs
      rwa [Nat.zero_add] at hcount

/-- A transform that reports one message about nothing in particular and one about a place. -/
def remarker : Transform where
  name := "remarks"
  apply d c := ⟨d, c.reportAll [⟨"short", none⟩, ⟨"plain", some ⟨⟨1, 1, 0⟩, ⟨1, 2, 1⟩⟩⟩], .nothing⟩

theorem messages_agree_with_trace_remarks :
    ∃ (result : Compilation) (after : Log),
      (Compiler.mk [remarker] [remarker] (.sound []) none).run {} "a" none = (.ok result, after) ∧
      result.messages = ["stage1", "stage2"].flatMap (fun stage =>
        [⟨"short", some stage, some "remarks", none, none⟩,
          ⟨"plain", some stage, some "remarks", some 1, some 1⟩]) ∧
      List.Forall₂ (Told result.trace.events) result.messages result.trace.warnings ∧
      result.trace.warnings.map (fun e =>
          ["stage", "transform", "line", "column"].map fun key => e.happening.metadata.lookup key) =
        ["stage1", "stage2"].flatMap (fun stage =>
          [[some (.str stage), some (.str "remarks"), some .null, some .null],
            [some (.str stage), some (.str "remarks"), some (.int 1), some (.int 1)]]) ∧
      Trace.replayFrom [] 0 result.trace.events = some [] := by
  let c : Compiler := ⟨[remarker], [remarker], .sound [], none⟩
  have hreports : ∀ u ∈ c.stage1 ++ c.stage2, u.OnlyReports := by
    intro u hu
    obtain rfl : u = remarker := by simpa [c] using hu
    exact fun d context => ⟨_, rfl⟩
  have hmessages : (c.run {} "a" none).1.toOption.map Compilation.messages =
      some (["stage1", "stage2"].flatMap fun stage =>
        [⟨"short", some stage, some "remarks", none, none⟩,
          ⟨"plain", some stage, some "remarks", some 1, some 1⟩]) := by
    decide +kernel
  cases hrun : c.run {} "a" none with
  | mk outcome after =>
    rw [hrun] at hmessages
    cases outcome with
    | error e => cases hmessages
    | ok result =>
      have hagree := messages_agree_with_trace hreports hrun
      have hresult := Option.some.inj hmessages
      refine ⟨result, after, rfl, hresult, hagree.1, ?_, hagree.2.2.2.1⟩
      rw [Told.map_lookup hagree.1, hresult]
      rfl

end Compiler

end Mdx
