import Mdx.Json.Basic

/-!
# Traces

A trace is the list of events of one compilation. Phases nest: an event that happens while phases are
open belongs to the innermost of them, its parent, and the end of a phase has the start of that phase
as its parent. Events are named by their place in the list, so no two have the same name.
-/

namespace Mdx

/-- What happened. -/
inductive Happening where
  | phaseStart (name detail : String)
  | phaseEnd
  /-- A transform ran to its end. -/
  | applied (stage : String) (index : Nat) (name : String) (replaced : Bool)
  /-- A stage made one tree of another. -/
  | changed (label before after : String)
  | warning (text : String) (details : Json.Members)
deriving Inhabited

namespace Happening

/-- The name of the sort of a happening. -/
def sort : Happening → String
  | .phaseStart _ _ => "phase_start"
  | .phaseEnd => "phase_end"
  | .applied _ _ _ _ => "transform_applied"
  | .changed _ _ _ => "tree_mutation"
  | .warning _ _ => "warning"

/-- A short text that tells a happening. -/
def description : Happening → String
  | .phaseStart name _ => name
  | .phaseEnd => "End Phase"
  | .applied _ _ name _ => "Applied " ++ name
  | .changed label _ _ => "Transformed " ++ label
  | .warning text _ => text

/-- The particulars of a happening. -/
def metadata : Happening → Json.Members
  | .phaseStart _ detail => [("detail", .str detail)]
  | .phaseEnd => []
  | .applied stage index name replaced =>
      [("stage", .str stage), ("index", .int index), ("name", .str name),
       ("replaced_tree", .bool replaced)]
  | .changed _ before after => [("before", .str before), ("after", .str after)]
  | .warning _ details => Json.Members.merge [("level", .str "warning")] details

end Happening

/-- An event: what happened, and the event that it belongs to. -/
structure Event where
  happening : Happening
  parent : Option Nat
deriving Inhabited

/-- An event as a JSON value. -/
def Event.toJson (e : Event) : Json :=
  .obj
    [("type", .str e.happening.sort),
     ("description", .str e.happening.description),
     ("parent", e.parent.elim .null fun n => .int n),
     ("metadata", .obj e.happening.metadata)]

/-- The events so far, and the phases that are open, the innermost first. -/
structure Trace where
  events : List Event := []
  openPhases : List Nat := []
deriving Inhabited

namespace Trace

/-- Adds an event that belongs to the innermost open phase. -/
def record (t : Trace) (h : Happening) : Trace :=
  { t with events := t.events ++ [⟨h, t.openPhases.head?⟩] }

/-- Opens a phase. -/
def startPhase (t : Trace) (name detail : String) : Trace where
  events := t.events ++ [⟨.phaseStart name detail, t.openPhases.head?⟩]
  openPhases := t.events.length :: t.openPhases

/-- Closes the innermost phase; without an open phase nothing happens. -/
def endPhase (t : Trace) : Trace :=
  match t.openPhases with
  | [] => t
  | phase :: rest => { events := t.events ++ [⟨.phaseEnd, some phase⟩], openPhases := rest }

/-- Records that a transform ran to its end. -/
def applied (t : Trace) (stage : String) (index : Nat) (name : String) (replaced : Bool) : Trace :=
  t.record (.applied stage index name replaced)

/-- Records that a stage made one tree of another. -/
def changed (t : Trace) (label before after : String) : Trace :=
  t.record (.changed label before after)

/-- Records a warning. -/
def warning (t : Trace) (text : String) (details : Json.Members) : Trace :=
  t.record (.warning text details)

@[simp] theorem openPhases_record (t : Trace) (h : Happening) :
    (t.record h).openPhases = t.openPhases := rfl

@[simp] theorem length_events_record (t : Trace) (h : Happening) :
    (t.record h).events.length = t.events.length + 1 := by
  simp [record]

@[simp] theorem openPhases_startPhase (t : Trace) (name detail : String) :
    (t.startPhase name detail).openPhases = t.events.length :: t.openPhases := rfl

/-- The end of a phase closes the innermost one. -/
@[simp] theorem openPhases_endPhase (t : Trace) : t.endPhase.openPhases = t.openPhases.tail := by
  rw [endPhase]
  cases h : t.openPhases with
  | nil => simp [h]
  | cons phase rest => rfl

/-- Without an open phase the end of one changes nothing. -/
theorem endPhase_of_nil {t : Trace} (h : t.openPhases = []) : t.endPhase = t := by
  rw [endPhase, h]

/-- The events as a JSON value. -/
def toJson (t : Trace) : Json :=
  .arr (t.events.map Event.toJson)

end Trace

end Mdx
