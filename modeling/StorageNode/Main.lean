import StorageNode.Command

/-!
# The program

The recovery command on a real disk. What the command may ask about the volumes is looked up first, so
the answers are those of one moment; the command then works on them alone.
-/

namespace StorageNode.Program

/-- What was found under a path. -/
structure Finding where
  list : Except DiskError (List String) := .error .notFound
  isDirectory : Bool := false
  isFile : Bool := false
  read : Except DiskError Bytes := .error .notFound

/-- What was found under paths, by their texts. -/
abbrev Findings := List (String × Finding)

/-- The view that findings give. -/
def Findings.view (fs : Findings) : DiskView where
  list p := ((fs.lookup p.text).map (·.list)).getD (.error .notFound)
  isDirectory p := (fs.lookup p.text).any (·.isDirectory)
  isFile p := (fs.lookup p.text).any (·.isFile)
  read p := ((fs.lookup p.text).map (·.read)).getD (.error .notFound)

/-- The cause of a failed operation, by the system's number for it. -/
def cause : IO.Error → DiskError
  | .permissionDenied .. => .denied
  | .inappropriateType _ 21 _ => .isDirectory
  | .inappropriateType .. => .notDirectory
  | .invalidArgument .. => .tooManyLinks
  | _ => .notFound

/-- The result of an operation, or the cause of its failure. -/
def attempt (op : IO α) : IO (Except DiskError α) := do
  try
    return .ok (← op)
  catch e => return .error (cause e)

/-- What is found under a path; the content only if it is asked for. -/
def look (path : String) (content : Bool) : IO Finding := do
  let here : IO.FS.DirEntry := ⟨path, ""⟩
  let kind := (← attempt here.root.metadata).toOption.map (·.type)
  let entries ← attempt here.root.readDir
  let read ← if content then attempt (IO.FS.readBinFile path) else pure (.error .notFound)
  return { list := entries.map fun es => es.toList.map (·.fileName)
           isDirectory := kind matches some .dir
           isFile := kind matches some .file
           read := read.map (·.toList) }

/-- What is found under a path and so many levels below it. Contents are read at the lowest level, of
files that are named like descriptors. -/
def survey : Nat → FilePath → IO Findings
  | 0, p => do return [(p.text, ← look p.text (p.text.endsWith ".container"))]
  | depth + 1, p => do
    let found ← look p.text false
    let mut all := [(p.text, found)]
    for name in found.list.toOption.getD [] do
      all := all ++ (← survey depth (p / name))
    return all

/-- How many levels lie between the root of a volume and the files of its containers. -/
def levels : Nat := 6

/-- What the command may ask: the configuration, and the volumes it names. -/
def surveyFor (args : List String) : IO Findings := do
  match Command.Request.ofArguments? args with
  | none => return []
  | some r =>
    let config ← look r.config.text true
    let findings : Findings := [(r.config.text, config)]
    match Config.load findings.view r.config with
    | .error _ => return findings
    | .ok c =>
      let volumes ← c.volumes.mapM (survey levels)
      return findings ++ volumes.flatten

end StorageNode.Program

open StorageNode in
/-- Runs the command with the program's arguments. -/
def main (args : List String) : IO UInt32 := do
  let findings ← Program.surveyFor args
  let outcome := Command.run args findings.view
  for e in outcome.log do
    IO.eprintln ("[" ++ e.line)
  IO.eprint outcome.stderr
  IO.print outcome.stdout
  return outcome.exitCode
