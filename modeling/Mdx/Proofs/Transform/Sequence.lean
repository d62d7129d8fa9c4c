import Mdx.Transform.Run

/-!
# Runs of transforms, call by call

A transform may do anything to its tree and its context, so all that can be said of a run is in what
order it calls the transforms, what it hands to each of them, and what it adds itself.  `Call` is one
call, with the run as it was before; `Through` is a row of calls that all come through, each starting
where the one before it went on.

* A run that comes to its end is such a row (`steps_eq_none_iff`).  A run that fails is such a row and one
  more call, which fails (`steps_eq_some_iff`); what that call left is kept, and no later transform has
  a part in the result.
* After a call that comes through the run adds one event to the trace of its tracer, and after a failing
  call none.  A trace that only the run writes to has them all, in order, and so has a trace that is shared
  with the transforms if these leave such events alone (`Through.applications_eq`).
-/

namespace Mdx

/-! ### Events of applied transforms -/

/-- Whether something that happened is that a transform ran to its end. -/
def Happening.isApplied : Happening → Bool
  | .applied _ _ _ _ => true
  | _ => false

/-- The transforms that ran to their end, as a trace records them. -/
def Trace.applications (t : Trace) : List Happening :=
  (t.events.map Event.happening).filter Happening.isApplied

/-- The transforms that ran to their end, as the trace of a context records them, if one is kept. -/
def Context.applications (c : Context) : Option (List Happening) :=
  c.trace.map Trace.applications

/-- The trace that the tracer of a run writes to, if there is one. -/
def Run.trace? (r : Run) : Option Trace :=
  match r.tracer with
  | .none => none
  | .shared => r.context.trace
  | .own trace => some trace

/-- The transforms that ran to their end, as the tracer of a run has recorded them, if there is one. -/
def Run.applications (r : Run) : Option (List Happening) :=
  r.trace?.map Trace.applications

theorem Run.trace?_mapTrace (f : Trace → Trace) (r : Run) : (r.mapTrace f).trace? = r.trace?.map f := by
  obtain ⟨given, replacement, context, tracer⟩ := r
  cases tracer <;> rfl

theorem Run.tracer_mapTrace (f : Trace → Trace) (r : Run) :
    (r.mapTrace f).tracer = .shared ↔ r.tracer = .shared := by
  obtain ⟨given, replacement, context, tracer⟩ := r
  cases tracer with
  | none => exact Iff.rfl
  | shared => exact Iff.rfl
  | own trace =>
    constructor
    · intro h
      cases h
    · intro h
      cases h

theorem Trace.applications_record {t : Trace} {h : Happening} (hh : h.isApplied = true) :
    (t.record h).applications = t.applications ++ [h] := by
  rw [applications, record, List.map_append, List.filter_append]
  show _ ++ List.filter Happening.isApplied [h] = _
  rw [List.filter_cons_of_pos hh, List.filter_nil]
  rfl

/-! ### Calls -/

/-- A call of a transform: its place in the list, and the run when it is called. -/
structure Call where
  index : Nat
  transform : Transform
  before : Run

namespace Call

/-- The context that the transform is given, which names it. -/
def context (k : Call) : Context :=
  { k.before.context with current := some k.transform.name }

/-- What the transform makes of the tree to go on with. -/
def outcome (k : Call) : Outcome :=
  k.transform.apply k.before.current k.context

/-- Why the call fails, if it does: the transform fails, or replies with a value that is no tree. -/
def cause? (k : Call) : Option Failure :=
  match k.outcome.reply with
  | .nothing => none
  | .itself => none
  | .tree _ => none
  | .value v => some (Run.badReply v)
  | .failure cause => some cause

/-- Whether the transform replies with a tree. -/
def replaces (k : Call) : Bool :=
  match k.outcome.reply with
  | .itself => true
  | .tree _ => true
  | _ => false

/-- The run as the transform leaves it: what it did to its tree and to the context is kept, and no
transform is named any more. -/
def left (k : Call) : Run :=
  { k.before.withCurrent k.outcome.tree with context := { k.outcome.context with current := none } }

/-- The run as the transform leaves it, with the tree that it replies with. -/
def goesOn (k : Call) : Run :=
  match k.outcome.reply with
  | .tree other => { k.left with replacement := some other }
  | _ => k.left

/-- The run after a call that comes through, with the note that it did. -/
def after (stage : String) (k : Call) : Run :=
  k.goesOn.noteApplied stage k.index k.transform.name k.replaces

/-- The event of a call that comes through. -/
def event (stage : String) (k : Call) : Happening :=
  .applied stage k.index k.transform.name k.replaces

/-- The transform leaves the events of applied transforms as they are. -/
def KeepsApplications (k : Call) : Prop :=
  k.outcome.context.applications = k.context.applications

/-- **A call that comes through is a step of the run.** -/
theorem step_of_none {k : Call} (stage : String) (h : k.cause? = none) :
    Run.step stage k.index k.transform k.before = (k.after stage, none) := by
  have hreply : (k.transform.apply k.before.current
      { k.before.context with current := some k.transform.name }).reply = k.outcome.reply := rfl
  rw [cause?] at h
  rw [Run.step, hreply, after, goesOn, replaces]
  cases hr : k.outcome.reply with
  | nothing => rfl
  | itself => rfl
  | tree other => rfl
  | value v =>
    rw [hr] at h
    cases h
  | failure cause =>
    rw [hr] at h
    cases h

/-- **A call that fails ends the run**, and what it left is kept. -/
theorem step_of_some {k : Call} {cause : Failure} (stage : String) (h : k.cause? = some cause) :
    Run.step stage k.index k.transform k.before =
      (k.left, some ⟨stage, k.index, k.transform.name, cause⟩) := by
  have hreply : (k.transform.apply k.before.current
      { k.before.context with current := some k.transform.name }).reply = k.outcome.reply := rfl
  rw [cause?] at h
  rw [Run.step, hreply]
  cases hr : k.outcome.reply with
  | nothing =>
    rw [hr] at h
    cases h
  | itself =>
    rw [hr] at h
    cases h
  | tree other =>
    rw [hr] at h
    cases h
  | value v =>
    rw [hr] at h
    cases h
    rfl
  | failure cause =>
    rw [hr] at h
    cases h
    rfl

theorem tracer_left (k : Call) : k.left.tracer = k.before.tracer := by
  rw [left, Run.withCurrent]
  cases k.before.replacement <;> rfl

theorem trace?_after (stage : String) (k : Call) :
    (k.after stage).trace? = k.left.trace?.map fun t => t.record (k.event stage) := by
  have hgoesOn : ∀ text : String, (k.goesOn.logged .debug text).trace? = k.left.trace? := by
    intro text
    unfold goesOn
    split <;> rfl
  rw [after, Run.noteApplied, Run.trace?_mapTrace, hgoesOn]
  rfl

theorem tracer_after (stage : String) (k : Call) :
    (k.after stage).tracer = .shared ↔ k.before.tracer = .shared := by
  have hgoesOn : ∀ text : String, (k.goesOn.logged .debug text).tracer = k.before.tracer := by
    intro text
    rw [← tracer_left]
    unfold goesOn
    split <;> rfl
  rw [after, Run.noteApplied, Run.tracer_mapTrace, hgoesOn]

/-- The transform writes to a shared trace only, and there it leaves the events of applied transforms. -/
theorem applications_left {k : Call} (h : k.before.tracer = .shared → k.KeepsApplications) :
    k.left.applications = k.before.applications := by
  rw [Run.applications, Run.applications, Run.trace?, Run.trace?, tracer_left]
  cases htracer : k.before.tracer with
  | none => rfl
  | shared => exact h htracer
  | own trace => rfl

end Call

/-! ### Rows of calls -/

/-- A row of calls from one run to another, the first of them having the given index: all come through,
and each goes on where the one before it stopped. -/
inductive Through (stage : String) : Nat → Run → List Call → Run → Prop
  | nil {index : Nat} {r : Run} : Through stage index r [] r
  | cons {index : Nat} {t : Transform} {r last : Run} {calls : List Call}
      (hok : (Call.mk index t r).cause? = none)
      (h : Through stage (index + 1) ((Call.mk index t r).after stage) calls last) :
      Through stage index r (⟨index, t, r⟩ :: calls) last

section Through

variable {stage : String} {index : Nat} {r last : Run} {calls : List Call}

theorem Through.map_index (h : Through stage index r calls last) :
    calls.map Call.index = List.range' index calls.length := by
  induction h with
  | nil => rfl
  | cons hok h ih => rw [List.map_cons, List.length_cons, List.range'_succ, ih]

theorem Through.steps_eq (h : Through stage index r calls last) :
    Run.steps stage index (calls.map Call.transform) r = (last, none) := by
  induction h with
  | nil => rfl
  | @cons index t r last calls hok h ih =>
    have hstep : Run.step stage index t r = _ := Call.step_of_none stage hok
    rw [List.map_cons, Run.steps, hstep]
    exact ih

/-- **A run comes to its end exactly if it is a row of calls that come through.** -/
theorem steps_eq_none_iff {ts : List Transform} :
    Run.steps stage index ts r = (last, none) ↔
      ∃ calls : List Call, calls.map Call.transform = ts ∧ Through stage index r calls last := by
  constructor
  · intro h
    induction ts generalizing index r with
    | nil =>
      cases h
      exact ⟨[], rfl, .nil⟩
    | cons t rest ih =>
      rw [Run.steps] at h
      cases hc : (Call.mk index t r).cause? with
      | none =>
        have hstep : Run.step stage index t r = _ := Call.step_of_none stage hc
        rw [hstep] at h
        obtain ⟨calls, rfl, hcalls⟩ := ih h
        exact ⟨_ :: calls, rfl, .cons hc hcalls⟩
      | some cause =>
        have hstep : Run.step stage index t r = _ := Call.step_of_some stage hc
        rw [hstep] at h
        cases h
  · rintro ⟨calls, rfl, h⟩
    exact h.steps_eq

/-- A row of calls and a call that fails; the transforms after it have no part in the result. -/
theorem Through.steps_fails {t : Transform} {cause : Failure} (h : Through stage index r calls last)
    (hc : (Call.mk (index + calls.length) t last).cause? = some cause) (rest : List Transform) :
    Run.steps stage index (calls.map Call.transform ++ t :: rest) r =
      ((Call.mk (index + calls.length) t last).left,
        some ⟨stage, index + calls.length, t.name, cause⟩) := by
  have hstep : Run.step stage (index + calls.length) t last = _ := Call.step_of_some stage hc
  rw [Run.steps_append, h.steps_eq, List.length_map]
  dsimp only
  rw [Run.steps, hstep]

/-- **A run fails exactly if it is a row of calls that come through and then one that fails.** -/
theorem steps_eq_some_iff {ts : List Transform} {left : Run} {e : TransformError} :
    Run.steps stage index ts r = (left, some e) ↔
      ∃ (calls : List Call) (t : Transform) (rest : List Transform) (last : Run) (cause : Failure),
        ts = calls.map Call.transform ++ t :: rest ∧ Through stage index r calls last ∧
        (Call.mk (index + calls.length) t last).cause? = some cause ∧
        left = (Call.mk (index + calls.length) t last).left ∧
        e = ⟨stage, index + calls.length, t.name, cause⟩ := by
  constructor
  · intro h
    induction ts generalizing index r with
    | nil => cases h
    | cons t rest ih =>
      rw [Run.steps] at h
      cases hc : (Call.mk index t r).cause? with
      | none =>
        have hstep : Run.step stage index t r = _ := Call.step_of_none stage hc
        rw [hstep] at h
        obtain ⟨calls, u, rest, last, cause, rfl, hcalls, hu, rfl, rfl⟩ := ih h
        have hindex : index + 1 + calls.length = index + (calls.length + 1) := by omega
        rw [hindex] at hu ⊢
        exact ⟨⟨index, t, r⟩ :: calls, u, rest, last, cause, rfl, .cons hc hcalls, hu, rfl, rfl⟩
      | some cause =>
        have hstep : Run.step stage index t r = _ := Call.step_of_some stage hc
        rw [hstep] at h
        cases h
        exact ⟨[], t, rest, r, cause, rfl, .nil, hc, rfl, rfl⟩
  · rintro ⟨calls, t, rest, last, cause, rfl, hcalls, hc, rfl, rfl⟩
    exact hcalls.steps_fails hc rest

theorem Through.tracer_last (h : Through stage index r calls last) :
    last.tracer = .shared ↔ r.tracer = .shared := by
  induction h with
  | nil => exact Iff.rfl
  | cons hok h ih => exact ih.trans (Call.tracer_after stage _)

/-- **The tracer of a row has recorded an event for each call, in order**, if it is not shared with the
transforms or these leave the events of applied transforms alone. -/
theorem Through.applications_eq (h : Through stage index r calls last)
    (hkeep : r.tracer = .shared → ∀ k ∈ calls, k.KeepsApplications) :
    last.applications = r.applications.map fun done => done ++ calls.map (Call.event stage) := by
  induction h with
  | nil =>
    simp only [List.map_nil, List.append_nil]
    exact Option.map_id'.symm
  | @cons index t r last calls hok h ih =>
    let k : Call := ⟨index, t, r⟩
    have hleft : k.left.applications = r.applications :=
      Call.applications_left fun htracer => hkeep htracer k List.mem_cons_self
    have hrest : (k.after stage).tracer = .shared → ∀ k ∈ calls, k.KeepsApplications := by
      intro htracer k' hk'
      exact hkeep ((Call.tracer_after stage k).mp htracer) k' (List.mem_cons_of_mem _ hk')
    have hafter : (k.after stage).applications =
        r.applications.map fun done => done ++ [k.event stage] := by
      have hrecord : ∀ trace : Trace, (trace.record (k.event stage)).applications =
          trace.applications ++ [k.event stage] := fun trace => Trace.applications_record rfl
      rw [Run.applications, Call.trace?_after, Option.map_map, ← hleft, Run.applications,
        Option.map_map]
      exact congrArg (Option.map · _) (funext hrecord)
    rw [ih hrest, hafter, Option.map_map]
    refine congrArg (Option.map · _) (funext fun done => ?_)
    show done ++ [k.event stage] ++ calls.map (Call.event stage) = _
    rw [List.append_assoc]
    rfl

end Through

/-! ### Runs that start anew -/

namespace Run

/-- What a run shows: the tree to go on with, the context, the tracer, and the error that ended it. -/
def view (result : Run × Option TransformError) :
    Draft × Context × Tracer × Option TransformError :=
  (result.1.current, result.1.context, result.1.tracer, result.2)

/-- The run that starts where another one has come to. -/
def anew (r : Run) : Run :=
  { given := r.current, context := r.context, tracer := r.tracer }

theorem view_eq_iff {r r' : Run} {e e' : Option TransformError} :
    view (r, e) = view (r', e') ↔ r.anew = r'.anew ∧ e = e' := by
  simp only [view, anew, Prod.mk.injEq, Run.mk.injEq, true_and, and_assoc]

theorem anew_withCurrent (r : Run) (tree : Draft) (c : Context) :
    { r.withCurrent tree with context := c }.anew = ⟨tree, none, c, r.tracer⟩ := by
  obtain ⟨given, replacement, context, tracer⟩ := r
  cases replacement <;> rfl

theorem anew_noteApplied (r : Run) (stage : String) (index : Nat) (name : String) (replaced : Bool) :
    (r.noteApplied stage index name replaced).anew = r.anew.noteApplied stage index name replaced := by
  obtain ⟨given, replacement, context, tracer⟩ := r
  cases tracer <;> rfl

theorem view_step (stage : String) (index : Nat) (t : Transform) (r : Run) :
    view (step stage index t r) = view (step stage index t r.anew) := by
  have hleft : ∀ (tree : Draft) (c : Context),
      { r.withCurrent tree with context := c }.anew =
        { r.anew.withCurrent tree with context := c }.anew := by
    intro tree c
    rw [anew_withCurrent, anew_withCurrent]
    rfl
  have hnoted : ∀ {left left' : Run} (replaced : Bool), left.anew = left'.anew →
      view (left.noteApplied stage index t.name replaced, none) =
        view (left'.noteApplied stage index t.name replaced, none) := by
    intro left left' replaced h
    rw [view_eq_iff, anew_noteApplied, anew_noteApplied, h]
    exact ⟨rfl, rfl⟩
  have houtcome : t.apply r.anew.current { r.anew.context with current := some t.name } =
      t.apply r.current { r.context with current := some t.name } := rfl
  rw [step, step, houtcome]
  generalize t.apply r.current { r.context with current := some t.name } = outcome
  dsimp only
  cases outcome.reply with
  | nothing => exact hnoted false (hleft _ _)
  | itself => exact hnoted true (hleft _ _)
  | tree other =>
    refine hnoted true ?_
    have htracer := congrArg Run.tracer (hleft outcome.tree { outcome.context with current := none })
    exact congrArg (Run.mk other none { outcome.context with current := none }) htracer
  | value v => exact view_eq_iff.mpr ⟨hleft _ _, rfl⟩
  | failure cause => exact view_eq_iff.mpr ⟨hleft _ _, rfl⟩

/-- **A run is told by its tree, its context and its tracer**: transforms do the same in the run that
starts anew with these. -/
theorem view_steps (stage : String) (index : Nat) (ts : List Transform) (r : Run) :
    view (steps stage index ts r) = view (steps stage index ts r.anew) := by
  induction ts generalizing index r with
  | nil => exact view_eq_iff.mpr ⟨rfl, rfl⟩
  | cons t rest ih =>
    have hstep := view_step stage index t r
    rw [steps, steps]
    generalize step stage index t r = result at hstep ⊢
    generalize step stage index t r.anew = result' at hstep ⊢
    obtain ⟨left, error?⟩ := result
    obtain ⟨left', error?'⟩ := result'
    obtain ⟨hsame, rfl⟩ := view_eq_iff.mp hstep
    cases error? with
    | none =>
      dsimp only
      rw [ih (index + 1) left, ih (index + 1) left', hsame]
    | some e => exact hstep

/-- No transform is named after a run, unless one was named before and there was none to run. -/
theorem current_steps (stage : String) (index : Nat) (ts : List Transform) (r : Run) :
    (steps stage index ts r).1.context.current =
      if ts.isEmpty then r.context.current else none := by
  induction ts generalizing index r with
  | nil => rfl
  | cons t rest ih =>
    have hcurrent := current_step stage index t r
    rw [steps]
    generalize step stage index t r = result at hcurrent ⊢
    obtain ⟨left, error?⟩ := result
    cases error? with
    | none =>
      have hleft : left.context.current = none := hcurrent
      have hrest := ih (index + 1) left
      rw [hleft, ite_self] at hrest
      exact hrest
    | some e => exact hcurrent

/-- Goes on after a run that came through; one that failed stays as it is. -/
def andThen (result : Run × Option TransformError) (next : Run → Run × Option TransformError) :
    Run × Option TransformError :=
  match result.2 with
  | none => next result.1
  | some e => (result.1, some e)

end Run

/-! ### Runs of a stage -/

/-- **Transforms are applied one after another, and a failure is told of the transform that failed.**

* Two lists in a row are run one after the other: the second list, its indices going on, is run only if the
  first one came through, and as in a run that starts with the tree and the context left by the first.
* A run that fails is a row of calls that come through and one that fails.  The error has the stage, the
  number of calls before, and the name of the transform that failed or replied with no tree.  All
  transforms up to it were called, in order, each with the tree and the context left by the one before;
  what they did is kept, and the transforms after it have no part in the result.  The tracer, if there
  is one, records each call that came through, and no other.
* After a run no transform is named as running, but a run of no transforms leaves the name that it finds. -/
theorem transforms_run_in_sequence (tracer : Tracer) (stage : String) (tree : Draft) (c : Context) :
    (∀ first second : List Transform,
      runTransforms tracer stage (first ++ second) tree c =
        Run.andThen (runTransforms tracer stage first tree c) (Run.steps stage first.length second) ∧
      ∀ r : Run, Run.view (Run.steps stage first.length second r) =
        Run.view (Run.steps stage first.length second r.anew)) ∧
    (∀ (ts : List Transform) (r : Run) (e : TransformError),
      runTransforms tracer stage ts tree c = (r, some e) →
      ∃ (calls : List Call) (failing : Call) (cause : Failure) (rest : List Transform),
        ts = calls.map Call.transform ++ failing.transform :: rest ∧
        Through stage 0 (Run.start tracer stage tree c) calls failing.before ∧
        failing.cause? = some cause ∧
        e = ⟨stage, calls.length, failing.transform.name, cause⟩ ∧
        r = failing.left ∧
        (∀ others : List Transform,
          runTransforms tracer stage (calls.map Call.transform ++ failing.transform :: others) tree c =
            (r, some e)) ∧
        calls.map Call.index = List.range calls.length ∧
        (∀ k ∈ calls, (k.after stage).trace? =
          k.left.trace?.map fun t => t.record (k.event stage)) ∧
        ((tracer = .shared → ∀ k ∈ calls ++ [failing], k.KeepsApplications) →
          r.applications = (Run.start tracer stage tree c).applications.map
            fun done => done ++ calls.map (Call.event stage))) ∧
    ∀ ts : List Transform,
      (runTransforms tracer stage ts tree c).1.context.current =
        if ts.isEmpty then c.current else none := by
  refine ⟨fun first second => ⟨?_, fun r => ?_⟩, ?_, ?_⟩
  · rw [runTransforms, runTransforms, Run.steps_append, Nat.zero_add]
    generalize Run.steps stage 0 first _ = result
    obtain ⟨r, error?⟩ := result
    cases error? <;> rfl
  · exact Run.view_steps stage first.length second r
  · intro ts r e h
    obtain ⟨calls, t, rest, last, cause, rfl, hcalls, hcause, rfl, rfl⟩ := steps_eq_some_iff.mp h
    have hindex := hcalls.map_index
    rw [Nat.zero_add] at hcause ⊢
    refine ⟨calls, ⟨calls.length, t, last⟩, cause, rest, rfl, hcalls, hcause, rfl, rfl,
      fun others => ?_, ?_, fun k _ => k.trace?_after stage, fun hkeep => ?_⟩
    · rw [runTransforms, hcalls.steps_fails (by rw [Nat.zero_add]; exact hcause), Nat.zero_add]
    · rw [hindex, List.range_eq_range']
    · have hleft := Call.applications_left (k := ⟨calls.length, t, last⟩) fun hshared =>
        hkeep (hcalls.tracer_last.mp hshared) _ (List.mem_append_right _ List.mem_cons_self)
      refine hleft.trans (hcalls.applications_eq fun hshared k hk => ?_)
      exact hkeep hshared k (List.mem_append_left _ hk)
  · exact fun ts => Run.current_steps stage 0 ts _

/-- A transform that leaves a note in the context. -/
def noteTaker : Transform where
  name := "note"
  apply d c := ⟨d, { c with metadata := [("seen", .bool true)] }, .nothing⟩

/-- A transform that replies with an empty tree. -/
def emptier : Transform where
  name := "empty"
  apply d c := ⟨d, c, .tree (.ofNode (.ofChildren []))⟩

/-- A transform that replies with a number. -/
def counter : Transform where
  name := "count"
  apply d c := ⟨d, c, .value (.int 1)⟩

/-- The run of four transforms, the third of which replies with no tree. -/
def brokenRun (tracer : Tracer) : Run × Option TransformError :=
  runTransforms tracer "stage2" [noteTaker, emptier, counter, noteTaker] (.ofNode (.ofChildren []))
    { trace := some {} }

/-- The first two transforms are recorded, the third one is told to have failed, and the fourth one is
not called. -/
theorem transforms_run_in_sequence_bad_reply :
    ∃ (e : TransformError) (calls : List Call) (failing : Call),
      (brokenRun .shared).2 = some e ∧ e.stage = "stage2" ∧ e.index = 2 ∧ e.name = "count" ∧
      calls.map Call.transform = [noteTaker, emptier] ∧ failing.transform = counter ∧
      (brokenRun .shared).1 = failing.left ∧ (brokenRun .shared).1.context.current = none ∧
      (brokenRun .shared).1.applications = some (calls.map (Call.event "stage2")) ∧
      calls.map (Call.event "stage2") =
        [.applied "stage2" 0 "note" false, .applied "stage2" 1 "empty" true] := by
  obtain ⟨-, hfail, hcurrent⟩ := transforms_run_in_sequence .shared "stage2"
    (.ofNode (.ofChildren [])) { trace := some {} }
  have herror : (brokenRun .shared).2 = some ⟨"stage2", 2, "count", Run.badReply (.int 1)⟩ := rfl
  obtain ⟨calls, failing, cause, rest, hts, -, -, he, hr, -, -, -, happlied⟩ :=
    hfail [noteTaker, emptier, counter, noteTaker] (brokenRun .shared).1 _ (Prod.ext rfl herror)
  have hlength : calls.length = 2 := (congrArg TransformError.index he).symm
  have hsplit : [noteTaker, emptier] ++ [counter, noteTaker] = _ := hts
  obtain ⟨hcalls, hrest⟩ := List.append_inj hsplit (by rw [List.length_map, hlength]; rfl)
  obtain ⟨hcounter, -⟩ := List.cons.inj hrest
  have hkeep : ∀ k ∈ calls ++ [failing], k.KeepsApplications := by
    intro k hk
    have hmem : k.transform ∈ [noteTaker, emptier, counter] := by
      rw [show [noteTaker, emptier, counter] = (calls ++ [failing]).map Call.transform by
        rw [List.map_append, ← hcalls, List.map_singleton, ← hcounter]; rfl]
      exact List.mem_map_of_mem hk
    rw [Call.KeepsApplications, Call.outcome]
    rcases List.mem_cons.mp hmem with h | hmem
    · rw [h]
      rfl
    · rcases List.mem_cons.mp hmem with h | hmem
      · rw [h]
        rfl
      · rw [List.mem_singleton.mp hmem]
        rfl
  have hevents := happlied fun _ => hkeep
  exact ⟨_, calls, failing, herror, rfl, rfl, rfl, hcalls.symm, hcounter.symm, hr, hcurrent _,
    hevents, (Option.some.inj hevents).symm⟩

/-- **A run need not forget the transform that is named as running, nor record the calls that come
through**: a run of no transforms leaves the name that it finds, and a run without a tracer records
none of the two calls before the one that fails. -/
theorem run_keeps_name_and_records_nothing :
    (runTransforms .none "stage1" [] (.ofNode (.ofChildren [])) { current := some "note" }
      ).1.context.current = some "note" ∧
    (brokenRun .none).2.map TransformError.index = some 2 ∧ (brokenRun .none).1.trace? = none ∧
    (brokenRun .none).1.context.applications = some [] :=
  ⟨rfl, rfl, rfl, rfl⟩

end Mdx
