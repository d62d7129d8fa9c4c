import Mdx.Transform.Registry

/-!
# Plugin directories

A directory of plugins holds files that register transforms. The files are loaded in the order of
their names, and the first failure ends the loading; what was registered before stays. A directory
loaded in place of the bundled transform leaves that transform unloaded for good.
-/

namespace Mdx

/-- A step of a plugin file. -/
inductive PluginStep where
  | register (name stage : String) (builtin : Bool) (transform : Transform)
  | fail (cause : Failure)

/-- A place where plugins are looked for. -/
inductive PluginPlace where
  | missing
  /-- A file, which is passed over. -/
  | file
  /-- A directory: its files by name. -/
  | folder (files : List (String × List PluginStep))

namespace PluginPlace

/-- Whether a file of this name is a plugin. -/
def isPlugin (name : String) : Bool :=
  name.endsWith ".py" && name != "__init__.py"

/-- The plugins of a place in the order of their names. -/
def plugins : PluginPlace → List (String × List PluginStep)
  | .folder files =>
      (files.filter fun f => isPlugin f.1).mergeSort fun a b => decide (a.1 ≤ b.1)
  | _ => []

/-- Whether the place is a directory. -/
def isFolder : PluginPlace → Bool
  | .folder _ => true
  | _ => false

end PluginPlace

namespace Registry

/-- Takes the steps of a plugin file. -/
def perform (r : Registry) : List PluginStep → Registry × Option Failure
  | [] => (r, none)
  | .fail cause :: _ => (r, some cause)
  | .register name stage builtin t :: rest =>
      match r.register name stage builtin t with
      | .ok r => perform r rest
      | .error cause => (r, some cause)

/-- Loads plugin files one after another and counts them. -/
def loadFiles (r : Registry) (count : Nat) :
    List (String × List PluginStep) → Registry × Except Failure Nat
  | [] => (r, .ok count)
  | (_, steps) :: rest =>
      match r.perform steps with
      | (r, none) => loadFiles r (count + 1) rest
      | (r, some cause) => (r, .error cause)

/-- Loads the plugins of places one after another and counts the files. -/
def loadPlaces (r : Registry) (count : Nat) : List PluginPlace → Registry × Except Failure Nat
  | [] => (r, .ok count)
  | place :: rest =>
      match r.loadFiles count place.plugins with
      | (r, .ok count) => loadPlaces r count rest
      | (r, .error cause) => (r, .error cause)

/-- Loads plugins and counts the files: those of the main place, which is the bundled transform's
module unless another is given, and those of the extra places. -/
def load (r : Registry) (main? : Option PluginPlace) (extra : List PluginPlace) :
    Registry × Except Failure Nat :=
  match main? with
  | none => r.ready.loadPlaces (if r.loaded then 0 else 1) extra
  | some place =>
      match r.loadFiles 0 place.plugins with
      | (r, .ok count) => { r with loaded := r.loaded || place.isFolder }.loadPlaces count extra
      | (r, .error cause) => (r, .error cause)

end Registry

end Mdx
