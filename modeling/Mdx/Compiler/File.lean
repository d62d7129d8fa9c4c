import Mdx.Compiler.Basic
import Mdx.Config.Load

/-!
# Compiling files and texts

`compileText` compiles a text under a configuration with overrides. `Compiler.runFile` compiles a file
of a workspace, which is shown by its path without the parts of it that say nothing.
-/

namespace Mdx

/-- Compiles a text under a configuration with overrides, and gives the registry and the log after. -/
def compileText (r : Registry) (log : Log) (config? : Option Config) (overrides : Arguments)
    (place : String → PluginPlace) (text : String) :
    Except CompileError String × Registry × Log :=
  match Config.configure config? overrides with
  | .error cause => (.error (.failure cause), r, log)
  | .ok config =>
      match Compiler.build r config place (some Module.defaultRuntime) with
      | (.error cause, r) => (.error (.failure cause), r, log)
      | (.ok compiler, r) =>
          match compiler.run log text none with
          | (.ok result, log) => (.ok result.code, r, log)
          | (.error e, log) => (.error e, r, log)

/-- Compiles a file, and gives the log after it. -/
def Compiler.runFile (c : Compiler) (log : Log) (w : Workspace) (path : String) :
    Except CompileError Compilation × Log :=
  match w.read (Path.resolve w.directory path) with
  | .error cause => (.error (.failure cause), log)
  | .ok text => c.run log (String.ofList (unixLines text.toList)) (some (Path.normalize path))

/-- The configuration of a workspace, unless one is given. -/
def Workspace.config (w : Workspace) (given? : Option Config) : Except Failure Config :=
  match given? with
  | some config => .ok config
  | none => Config.load w w.directory []

end Mdx
