import StorageNode.Yaml.Decode
import StorageNode.Disk.View

/-!
# The configuration of a node

A node is told by a file which volumes it has and, if need be, what goes into the log. Relative roots
are taken from the directory of the file. A configuration without volumes is refused.
-/

namespace StorageNode

/-- The path `p`, taken from `base` if it is relative. -/
def FilePath.resolve (base p : FilePath) : FilePath := if p.isAbsolute then p else base.join p

/-- What a node is told at its start. -/
structure Config where
  volumes : List FilePath
  logFilter : Option String
deriving DecidableEq, Inhabited, Repr

namespace Config

/-- Why a configuration cannot be used. -/
inductive Error where
  | disk (file : FilePath) (cause : DiskError)
  | malformed (file : FilePath) (cause : Yaml.Failure)
  | noVolumes (file : FilePath)
deriving DecidableEq, Repr

namespace Error

/-- The text of an error. -/
def message : Error → String
  | disk file cause => "failed to read config " ++ Text.quoted file.text ++ ": " ++ cause.message
  | malformed file cause =>
    "failed to parse config " ++ Text.quoted file.text ++ ": " ++ cause.message
  | noVolumes file => "config " ++ Text.quoted file.text ++ " lists no volumes"

/-- The text of what caused an error, if something else did. -/
def cause? : Error → Option String
  | disk _ cause => some cause.message
  | malformed _ cause => some cause.message
  | noVolumes _ => none

end Error

/-! ## Reading -/

open Yaml (Document Node Read)

/-- A configuration in the making. -/
structure Draft where
  volumes : Option (List FilePath) := none
  logFilter : Option (Option String) := none

/-- A text, or nothing where nothing or a null is written. -/
def optionalText (d : Document) (p : Yaml.Path) (n : Node) : Read (Option String) := do
  let n ← d.follow n
  let present : Read (Option String) := do return some (← d.text p "a string" n)
  match n with
  | .scalar _ tag .plain s =>
    if tag = some (Yaml.coreTag "null") then
      if Yaml.isNullWord s then return none
      else Read.mismatch [] (.value (.text s) "null")
    else if tag = none && (s = "" || Yaml.isNullWord s) then return none
    else present
  | _ => present

/-- Takes one entry of the document in. Unknown entries are passed over. -/
def Draft.add (d : Document) (draft : Draft) (k v : Node) : Read Draft := do
  let name ← d.text [] "field identifier" k
  let p : Yaml.Path := [Document.stepTo k]
  match name with
  | "volumes" =>
    if draft.volumes.isSome then Read.mismatch [] (.duplicate name)
    else
      let items ← d.items p "a sequence" v
      let roots ← Document.eachItem (fun i n => d.text (.index i :: p) "path string" n) 0 items
      return { draft with volumes := some (roots.map fun r => ⟨r⟩) }
  | "log_filter" =>
    if draft.logFilter.isSome then Read.mismatch [] (.duplicate name)
    else
      let filter ← optionalText d p v
      return { draft with logFilter := some filter }
  | _ => return draft

/-- Takes entries in, one after another. -/
def Draft.addAll (d : Document) (draft : Draft) : List (Node × Node) → Read Draft
  | [] => pure draft
  | (k, v) :: es => do
    let draft ← draft.add d k v
    draft.addAll d es

/-- The configuration that a node of a document holds, roots as they are written. -/
def ofNode (d : Document) (n : Node) : Read Config := do
  let entries ← d.entries [] "struct RecoveryConfig" n
  let draft ← ({} : Draft).addAll d entries
  match draft.volumes with
  | none => Read.mismatch [] (.missing "volumes")
  | some volumes => return ⟨volumes, draft.logFilter.getD none⟩

/-- The configuration in a file, roots taken from the directory of the file. -/
def load (v : DiskView) (file : FilePath) : Except Error Config :=
  match v.readText file with
  | .error e => .error (.disk file e)
  | .ok text =>
    match Yaml.read ofNode (Utf8.encode text) with
    | .error e => .error (.malformed file e)
    | .ok config =>
      if config.volumes = [] then .error (.noVolumes file)
      else
        let base := file.parent?.getD ⟨"."⟩
        .ok { config with volumes := config.volumes.map (FilePath.resolve base) }

end Config

end StorageNode
