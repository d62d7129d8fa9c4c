import Mdx.Transform.Basic

/-!
# Runs of transforms

The transforms of a stage run one after another, each on the tree that its predecessor left. The first
failure ends the run; what the transforms did up to then is kept. A context names a transform only
while that transform runs.

A run has a tracer of its own, apart from the trace of the context: it may record nothing, record in
the trace that the context keeps, or record in another one, which the transforms do not see.
-/

namespace Mdx

/-- Where a run records the transforms that ran to their end. -/
inductive Tracer where
  | none
  /-- The trace of the context, if one is kept. -/
  | shared
  /-- A trace that only the run writes to. -/
  | own (trace : Trace)
deriving Inhabited

/-- The state of a run: the tree that it started with as the transforms left it, the tree that took
its place, if any, the context, and the tracer. -/
structure Run where
  given : Draft
  replacement : Option Draft := none
  context : Context
  tracer : Tracer
deriving Inhabited

namespace Run

/-- The tree to go on with. -/
def current (r : Run) : Draft :=
  r.replacement.getD r.given

/-- The run with the tree to go on with changed in place. -/
def withCurrent (r : Run) (tree : Draft) : Run :=
  match r.replacement with
  | none => { r with given := tree }
  | some _ => { r with replacement := some tree }

/-- The failure of a reply that is no tree. -/
def badReply (v : Json) : Failure :=
  .badKind ("Transform returned " ++ v.kindName ++ ", expected a Node or None")

/-- Adds a record to the log of the context. -/
def logged (r : Run) (level : Level) (text : String) : Run :=
  { r with context := r.context.logged level text }

/-- Changes the trace that the tracer writes to, if there is one. -/
def mapTrace (f : Trace → Trace) (r : Run) : Run :=
  match r.tracer with
  | .none => r
  | .shared => { r with context := r.context.mapTrace f }
  | .own trace => { r with tracer := .own (f trace) }

/-- Notes in the log and with the tracer that a transform ran to its end. -/
def noteApplied (r : Run) (stage : String) (index : Nat) (name : String) (replaced : Bool) : Run :=
  let text := stage ++ ": applied #" ++ toString index ++ " " ++ name
  (r.logged .debug text).mapTrace fun t => t.applied stage index name replaced

/-- Runs one transform. -/
def step (stage : String) (index : Nat) (t : Transform) (r : Run) : Run × Option TransformError :=
  let outcome := t.apply r.current { r.context with current := some t.name }
  let left := { r.withCurrent outcome.tree with context := { outcome.context with current := none } }
  match outcome.reply with
  | .nothing => (left.noteApplied stage index t.name false, none)
  | .itself => (left.noteApplied stage index t.name true, none)
  | .tree other =>
      ({ left with replacement := some other }.noteApplied stage index t.name true, none)
  | .value v => (left, some ⟨stage, index, t.name, badReply v⟩)
  | .failure cause => (left, some ⟨stage, index, t.name, cause⟩)

/-- Runs transforms one after another, the first of them having the given index. -/
def steps (stage : String) : Nat → List Transform → Run → Run × Option TransformError
  | _, [], r => (r, none)
  | index, t :: rest, r =>
      match step stage index t r with
      | (r, none) => steps stage (index + 1) rest r
      | (r, some e) => (r, some e)

/-- A run of two lists in a row is a run of the first and, if that came through, one of the second
with its indices going on. -/
theorem steps_append (stage : String) (first second : List Transform) (index : Nat) (r : Run) :
    steps stage index (first ++ second) r =
      match steps stage index first r with
      | (r, none) => steps stage (index + first.length) second r
      | (r, some e) => (r, some e) := by
  induction first generalizing index r with
  | nil => rfl
  | cons t rest ih =>
    simp only [List.cons_append, steps]
    cases hs : step stage index t r with
    | mk left error? =>
      cases error? with
      | none =>
        have hi : index + (t :: rest).length = index + 1 + rest.length := by
          rw [List.length_cons]; omega
        simp only [ih, hi]
      | some e => rfl

theorem current_mapTrace (f : Trace → Trace) (r : Run) :
    (r.mapTrace f).context.current = r.context.current := by
  rw [mapTrace]
  cases r.tracer <;> rfl

/-- After a step no transform is named as running. -/
theorem current_step (stage : String) (index : Nat) (t : Transform) (r : Run) :
    (step stage index t r).1.context.current = none := by
  simp only [step]
  cases (t.apply r.current { r.context with current := some t.name }).reply with
  | nothing => exact current_mapTrace _ _
  | itself => exact current_mapTrace _ _
  | tree other => exact current_mapTrace _ _
  | value v => rfl
  | failure cause => rfl

end Run

/-- The run of a stage when it starts: the context names the stage. -/
def Run.start (tracer : Tracer) (stage : String) (tree : Draft) (c : Context) : Run :=
  { given := tree, context := { c with stage := some stage }, tracer := tracer }

/-- Runs the transforms of a stage on a tree. -/
def runTransforms (tracer : Tracer) (stage : String) (transforms : List Transform) (tree : Draft)
    (c : Context) : Run × Option TransformError :=
  Run.steps stage 0 transforms (Run.start tracer stage tree c)

end Mdx
