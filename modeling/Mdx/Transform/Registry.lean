
import Mdx.Extended.Autolink
import Mdx.Transform.Edit
import Mdx.Transform.Run

/-!
# The registry of transforms

One transform comes with the library: it makes images of paragraphs that hold the bare address of an
image and nothing else. The settings say which file extensions are those of images.

A registry knows transforms by name, each for one of the two stages, in the order in which the names
were first registered. The bundled transform is loaded when the registry is first asked, not when it
is made; loading registers it like any other, so it takes the place of an entry of its name.
-/

namespace Mdx

/-! ### The bundled transform -/

/-- The name of the bundled transform. -/
def imageAutolinkName : String :=
  "image-autolink"

/-- The tree that the bundled transform makes of a draft. -/
def imageAutolinked (d : Draft) (c : Context) : Except Failure Draft := do
  let settings ← c.settings.members "items"
  let extensions ← Extended.readExtensions settings
  return .ofNode (Extended.autolink extensions (← d.tree))

/-- The bundled transform, which changes the tree that it is given. -/
def imageAutolink : Transform where
  name := imageAutolinkName
  apply d c :=
    match imageAutolinked d c with
    | .ok changed => ⟨changed, c, .nothing⟩
    | .error cause => ⟨d, c, .failure cause⟩

/-! ### Registries -/

/-- The stages that transforms run in. -/
def stageNames : List String :=
  ["stage1", "stage2"]

/-- An entry of a registry. -/
structure RegistryEntry where
  name : String
  stage : String
  transform : Transform
  /-- Whether the transform runs without being asked for. -/
  builtin : Bool
deriving Inhabited

/-- The transforms by name, and whether the bundled one has been loaded. -/
structure Registry where
  entries : List RegistryEntry := []
  loaded : Bool := false
deriving Inhabited

namespace Registry

/-- The entries with one set: in place if its name is there, otherwise at the end. -/
def insert (entry : RegistryEntry) : List RegistryEntry → List RegistryEntry
  | [] => [entry]
  | e :: rest => if e.name = entry.name then entry :: rest else e :: insert entry rest

/-- An entry that was set is found under its name. -/
theorem find?_insert_self (entry : RegistryEntry) (entries : List RegistryEntry) :
    (insert entry entries).find? (·.name = entry.name) = some entry := by
  induction entries with
  | nil => simp [insert]
  | cons e rest ih =>
    rw [insert]
    by_cases h : e.name = entry.name
    · simp [h]
    · simpa [h] using ih

/-- Setting an entry leaves the entries of other names as they are. -/
theorem find?_insert_of_ne {entry : RegistryEntry} {name : String} (h : name ≠ entry.name)
    (entries : List RegistryEntry) :
    (insert entry entries).find? (·.name = name) = entries.find? (·.name = name) := by
  induction entries with
  | nil => simp [insert, Ne.symm h]
  | cons e rest ih =>
    rw [insert]
    by_cases he : e.name = entry.name
    · simp [he, Ne.symm h]
    · rw [if_neg he]
      by_cases hn : e.name = name
      · simp [hn]
      · simpa [hn] using ih

/-- The names of all entries, in order. -/
def names (r : Registry) : List String :=
  r.entries.map (·.name)

/-- The entry of a name. -/
def find? (r : Registry) (name : String) : Option RegistryEntry :=
  r.entries.find? (·.name = name)

/-- A transform under the name that it is registered by; an empty name leaves it its own. -/
def rename (name : String) (t : Transform) : Transform :=
  if name.isEmpty then t else { t with name := name }

/-- The failure of registering a transform for a stage that there is not. -/
def unknownStage (stage : String) : Failure :=
  .badValue ("Unknown transform stage '" ++ stage ++ "'. Expected one of ('stage1', 'stage2')")

/-- Registers a transform, in place of the one of that name if there is one. -/
def register (r : Registry) (name stage : String) (builtin : Bool) (t : Transform) :
    Except Failure Registry :=
  if stageNames.contains stage then
    .ok { r with entries := insert ⟨name, stage, rename name t, builtin⟩ r.entries }
  else .error (unknownStage stage)

/-- The entry of the bundled transform. -/
def bundledEntry : RegistryEntry :=
  ⟨imageAutolinkName, "stage1", imageAutolink, true⟩

/-- Loads the bundled transform. -/
def loadBundled (r : Registry) : Registry where
  entries := insert bundledEntry r.entries
  loaded := true

/-- The registry as it is once it has been asked something. -/
def ready (r : Registry) : Registry :=
  if r.loaded then r else r.loadBundled

/-- The entry of a name, the bundled transform being loaded before. -/
def get? (r : Registry) (name : String) : Option RegistryEntry :=
  r.ready.find? name

/-- The names of the entries, of one stage or of all, the bundled transform being loaded before. -/
def list (r : Registry) (stage? : Option String) : List String :=
  (r.ready.entries.filter fun e => stage?.all (· = e.stage)).map (·.name)

/-- The transforms of a stage that run without being asked for. -/
def builtins (r : Registry) (stage : String) : List Transform :=
  (r.ready.entries.filter fun e => e.builtin && e.stage = stage).map (·.transform)

end Registry

end Mdx
