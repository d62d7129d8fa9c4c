import Mdx.Config.Basic
import Mdx.Extended.Basic
import Mdx.Markdown.Document
import Mdx.Markup.Basic
import Mdx.Module.Basic
import Mdx.Transform.Plugin
import Mdx.Transform.Resolve
import Mdx.Transform.Run

/-!
# The compiler

A compiler takes a document through six phases: the document is parsed, markup and statements are
recognised, the first stage's transforms run, the tree is mapped to markup, the second stage's
transforms run, and the module is written. Each phase is traced. After the transforms of a stage the
tree has to be of that stage's vocabulary again.

The references to transforms are resolved when a compiler is made, so a compiler that exists has all
its transforms.
-/

namespace Mdx

/-- Why a compilation failed. -/
inductive CompileError where
  | failure (cause : Failure)
  | transform (error : TransformError)
deriving Repr

namespace CompileError

/-- The text of an error. -/
def message : CompileError → String
  | .failure cause => cause.message
  | .transform e => e.message

/-- Whether an error is reported in the log: one of the document, of a transform or of writing the
module is, and any other is left to the caller. -/
def isReported : CompileError → Bool
  | .failure (.structural _) => true
  | .failure (.generation _) => true
  | .failure _ => false
  | .transform _ => true

end CompileError

/-- A compiler: the transforms of its stages, the settings that they see, and the module that supplies
the runtime of the written modules. -/
structure Compiler where
  stage1 : List Transform
  stage2 : List Transform
  settings : Config.Field Json.Members
  runtime : Option String
deriving Inhabited

/-- The result of a compilation. -/
structure Compilation where
  code : String
  tree : Node
  messages : List Message
  trace : Trace
deriving Inhabited

/-- A computation of a compiler, which works on a context and may fail. -/
abbrev Session (α : Type) := ExceptT CompileError (StateM Context) α

namespace Session

/-- The result of a stage. -/
def ofStage {α : Type} : Except Failure α → Session α
  | .ok a => pure a
  | .error cause => throw (.failure cause)

/-- The result of a check. -/
def ofCheck {α : Type} : Except StructureError α → Session α
  | .ok a => pure a
  | .error e => throw (.failure (.structural e))

/-- Opens a phase. -/
def startPhase (name detail : String) : Session Unit :=
  modify fun c => c.mapTrace fun t => t.startPhase name detail

/-- Closes the innermost phase. -/
def endPhase : Session Unit :=
  modify fun c => c.mapTrace Trace.endPhase

/-- Records that one tree was made of another. -/
def changed (label before after : String) : Session Unit :=
  modify fun c => c.mapTrace fun t => t.changed label before after

/-- Runs the transforms of a stage, which are recorded in the trace of the context, and checks that they
left a tree of the stage's vocabulary. -/
def transformed (stage : String) (transforms : List Transform) (vocabulary : List String)
    (tree : Node) : Session Node := do
  let (run, error?) := runTransforms .shared stage transforms (.ofNode tree) (← get)
  set run.context
  match error? with
  | some e => throw (.transform e)
  | none =>
      ofCheck (run.current.validate vocabulary (stage ++ " transforms"))
      return run.current.toNode

end Session

/-- The number of nodes of a tree, in words. -/
def Node.summary (tree : Node) : String :=
  toString tree.size ++ " nodes"

namespace Compiler

/-- The transforms of a stage: the built-in ones, if they run, and those that are referred to. -/
def stageTransforms (r : Registry) (stage : String) (builtins : Config.Field Bool)
    (field : Config.Field (List TransformRef)) : Except Failure (List Transform) × Registry :=
  match field.refs with
  | .error cause => (.error cause, r)
  | .ok refs =>
      match r.resolveAll stage refs with
      | (.error cause, r) => (.error cause, r)
      | (.ok ts, r) => if builtins.truth then (.ok (r.builtins stage ++ ts), r.ready) else (.ok ts, r)

/-- Makes a compiler, and gives the registry after it was asked for the transforms. Plugins are loaded
from the places that the configuration's paths lead to. -/
def build (r : Registry) (config : Config) (place : String → PluginPlace)
    (runtime : Option String) : Except Failure Compiler × Registry :=
  match config.paths.pathList with
  | .error cause => (.error cause, r.ready)
  | .ok paths =>
      match r.load none (paths.map place) with
      | (r, .error cause) => (.error cause, r)
      | (r, .ok _) =>
          match stageTransforms r "stage1" config.builtins config.stage1 with
          | (.error cause, r) => (.error cause, r)
          | (.ok stage1, r) =>
              match stageTransforms r "stage2" config.builtins config.stage2 with
              | (.error cause, r) => (.error cause, r)
              | (.ok stage2, r) => (.ok ⟨stage1, stage2, config.settings, runtime⟩, r)

/-- How many transforms there are, in words. -/
def countText (ts : List Transform) : String :=
  toString ts.length ++ " transform(s)"

/-- Takes a document through the phases and gives the module's code and the last tree. -/
def phases (c : Compiler) (text : String) : Session (String × Node) := do
  Session.startPhase "Parse" "Markdown -> generic tree"
  let generic ← Session.ofStage (Markdown.parse text.toList)
  Session.changed "Parse" "(raw text)" generic.summary
  Session.endPhase
  Session.startPhase "Stage 1" "Generic tree -> extended tree"
  let extended ← Session.ofCheck (Extended.ofGeneric (some text.toList) generic)
  Session.changed "Stage 1" generic.summary extended.summary
  Session.endPhase
  Session.startPhase "Stage 1 Transforms" (countText c.stage1)
  let extended ← Session.transformed "stage1" c.stage1 Vocabulary.extended extended
  Session.endPhase
  Session.startPhase "Stage 2" "Extended tree -> markup tree"
  let markup ← Session.ofStage (Markup.ofExtended extended)
  Session.changed "Stage 2" extended.summary markup.summary
  Session.endPhase
  Session.startPhase "Stage 2 Transforms" (countText c.stage2)
  let markup ← Session.transformed "stage2" c.stage2 Vocabulary.markup markup
  Session.endPhase
  Session.startPhase "Codegen" "Markup tree -> JSX"
  let code ← Session.ofStage (Module.generate c.runtime markup)
  Session.endPhase
  return (code, markup)

/-- The context that a compilation starts with. -/
def newContext (c : Compiler) (log : Log) (text : String) (path? : Option String) : Context where
  settings := c.settings
  source := text
  path := path?
  trace := some {}
  log := log

/-- The context of a compilation that has finished. -/
def finished (label : String) (c : Context) : Context :=
  let c := (c.mapTrace Trace.endPhase).logged .success ("Compiled " ++ label)
  let events := (c.trace.getD {}).events.length
  c.logged .debug (toString c.messages.length ++ " message(s), " ++ toString events ++
    " trace event(s)")

/-- Compiles a document, and gives the log after it. -/
def run (c : Compiler) (log : Log) (text : String) (path? : Option String) :
    Except CompileError Compilation × Log :=
  let label := path?.getD "<string>"
  let start := (c.newContext log text path?).mapTrace fun t => t.startPhase "Compile" label
  match (c.phases text).run.run start with
  | (.error e, context) =>
      (.error e, if e.isReported then context.log.add .error (label ++ ": " ++ e.message)
        else context.log)
  | (.ok (code, tree), context) =>
      let context := finished label context
      (.ok ⟨code, tree, context.messages, context.trace.getD {}⟩, context.log)

end Compiler

end Mdx
