import StorageNode.Recovery
import StorageNode.Log.Filter
import StorageNode.Json.Value

/-!
# The recovery command

The command recovers the volumes that a configuration names, writes what happens to the log, and
reports on standard output: one line, or the whole report as JSON. A configuration that cannot be used
is an error with its causes; wrong arguments are a usage error.
-/

namespace StorageNode.Command

/-! ## Arguments -/

/-- What the command is asked to do. -/
structure Request where
  config : FilePath
  logFilter : Option String
  json : Bool
deriving DecidableEq, Repr

/-- A request in the making. -/
structure Draft where
  config : Option FilePath := none
  logFilter : Option String := none
  json : Bool := false

/-- Sets an option that takes a value; each may be given once. -/
def Draft.set (d : Draft) (name value : String) : Option Draft :=
  if name = "config" then
    if d.config.isNone && value ≠ "" then some { d with config := some ⟨value⟩ } else none
  else if name = "log-filter" then
    if d.logFilter.isNone then some { d with logFilter := some value } else none
  else none

/-- An option with the value behind its equals sign, if there is one. -/
def option? (arg : String) : Option (String × Option String) :=
  match arg.toList with
  | '-' :: '-' :: cs =>
    let name := String.ofList (cs.takeWhile (· ≠ '='))
    match cs.dropWhile (· ≠ '=') with
    | [] => some (name, none)
    | _ :: value => some (name, some (String.ofList value))
  | _ => none

/-- The argument cannot be a value of the option before it. -/
def looksLikeOption (arg : String) : Bool :=
  match arg.toList with
  | '-' :: _ :: _ => true
  | _ => false

/-- Takes arguments in. -/
def Draft.addAll (d : Draft) : List String → Option Draft
  | [] => some d
  | ["--"] => some d
  | arg :: rest =>
    match option? arg with
    | none => none
    | some (name, some value) => (d.set name value).bind (·.addAll rest)
    | some (name, none) =>
      if name = "json" then
        if d.json then none else ({ d with json := true } : Draft).addAll rest
      else
        match rest with
        | [] => none
        | value :: rest =>
          if looksLikeOption value then none else (d.set name value).bind (·.addAll rest)

/-- The request that arguments make. -/
def Request.ofArguments? (args : List String) : Option Request :=
  match ({} : Draft).addAll args with
  | none => none
  | some d => d.config.map fun c => ⟨c, d.logFilter, d.json⟩

/-! ## Reports -/

open Json (Value)

/-- A path as a value. -/
def ofPath (p : FilePath) : Value := .string p.text

/-- A skipped container as a value. -/
def ofSkipped (s : SkippedContainer) : Value :=
  .object [("container_id", .number s.id.toNat), ("path", ofPath s.dir),
    ("error", .string s.cause.message)]

/-- The report on a volume as a value. -/
def ofScan (r : ScanReport) : Value :=
  .object [("volume", .number r.volume.toNat), ("root", ofPath r.root),
    ("loaded", .array (r.loaded.map fun id => .number id.toNat)),
    ("skipped", .array (r.skipped.map ofSkipped)),
    ("failure", Value.ofOption (fun f => .string f.message) r.failure),
    ("aborted", Value.ofOption (fun dir => .string (abortMessage dir)) r.aborted)]

/-- The failure of a worker as a value. -/
def ofWorkerFailure (f : WorkerFailure) : Value :=
  .object [("volume", .number f.volume.toNat), ("root", ofPath f.root),
    ("reason", .string f.reason)]

/-- The report of a recovery as a value. -/
def ofReport (r : RecoveryReport) : Value :=
  .object [("volumes", .array (r.volumes.map ofScan)),
    ("worker_failures", .array (r.workerFailures.map ofWorkerFailure))]

/-- A recovery in one line. -/
def summary (r : RecoveryReport) (n : Node) : String :=
  "recovered " ++ toString n.catalog.size ++ " containers from " ++ toString r.volumes.length
    ++ " volumes (" ++ toString r.totalSkipped ++ " skipped, "
    ++ toString n.registry.failedRoots.length ++ " volumes failed)"

/-! ## Errors -/

/-- A text behind a mark, further lines of it as far to the right. -/
def indented (mark : String) (text : String) : String :=
  let margin := "\n" ++ String.ofList (List.replicate mark.length ' ')
  mark ++ String.intercalate margin (text.splitOn "\n")

/-- What is written about a configuration that cannot be used: the causes, numbered if there are
two. -/
def errorReport (file : FilePath) (e : Config.Error) : String :=
  "Error: loading " ++ file.text ++ "\n\nCaused by:\n" ++
    match e.cause? with
    | none => indented "    " e.message ++ "\n"
    | some cause =>
      indented "    0: " e.message ++ "\n" ++ indented "    1: " cause ++ "\n"

/-! ## The command -/

/-- What the command leaves. -/
structure Outcome where
  exitCode : UInt32
  stdout : String := ""
  /-- What is written to standard error beside the log. -/
  stderr : String := ""
  /-- The events that are logged. -/
  log : List Event := []

/-- Carries a request out. -/
def Request.run (r : Request) (view : DiskView) : Outcome :=
  match Config.load view r.config with
  | .error e => { exitCode := 1, stderr := errorReport r.config e }
  | .ok config =>
    let filter := match r.logFilter.or config.logFilter with
      | none => LogFilter.standard
      | some text => LogFilter.standard.add text
    let (report, node, log) := Node.recover view config.volumes
    let events := .recoveryStarted r.config config.volumes.length :: log.map (·.2)
      ++ report.failedVolumes.map .volumeUnusable
    { exitCode := 0
      stdout := (if r.json then (ofReport report).pretty else summary report node) ++ "\n"
      log := events.filter filter.allows }

/-- Carries out what arguments ask for. -/
def run (args : List String) (view : DiskView) : Outcome :=
  match Request.ofArguments? args with
  | none => { exitCode := 2, stderr := "usage: --config FILE [--log-filter FILTER] [--json]\n" }
  | some r => r.run view

end StorageNode.Command
