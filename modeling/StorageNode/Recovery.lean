import StorageNode.Scan
import StorageNode.Config

/-!
# Recovery

When a node starts it knows its volumes and no containers. Recovery scans every volume that is healthy,
each by a worker of its own, and collects the reports in the order in which the volumes were
registered. A worker that crashes leaves no report; what it had loaded stays. Workers do not depend on
one another unless two volumes hold the same container, so here one follows the other. That a worker
cannot be started at all is left out: each of them gets to its scan.
-/

namespace StorageNode

/-- What a node knows. -/
structure Node where
  registry : Registry := .empty
  catalog : Catalog := .empty
deriving DecidableEq, Inhabited

/-- A volume whose scan crashed. -/
structure WorkerFailure where
  volume : VolumeId
  root : FilePath
  reason : String
deriving DecidableEq, Repr

/-- What came of a recovery. -/
structure RecoveryReport where
  volumes : List ScanReport := []
  workerFailures : List WorkerFailure := []
deriving DecidableEq, Repr

namespace RecoveryReport

/-- How many containers were loaded. -/
def totalLoaded (r : RecoveryReport) : Nat := (r.volumes.map (·.loaded.length)).foldr (· + ·) 0

/-- How many containers were skipped. -/
def totalSkipped (r : RecoveryReport) : Nat := (r.volumes.map (·.skipped.length)).foldr (· + ·) 0

/-- The roots of the volumes that failed. -/
def failedVolumes (r : RecoveryReport) : List FilePath :=
  (r.volumes.filter (·.failed)).map (·.root)

/-- The report on a volume. -/
def volume? (r : RecoveryReport) (v : VolumeId) : Option ScanReport :=
  r.volumes.find? (·.volume = v)

end RecoveryReport

/-- Who writes to the log. -/
inductive Writer where
  | main
  | worker (volume : VolumeId)
deriving DecidableEq, Repr

/-- The name of a writer. -/
def Writer.name : Writer → String
  | main => "main"
  | worker v => "volume-scan-" ++ toString v.toNat

/-- The log: events with their writers, those of each writer in their order. -/
abbrev Log := List (Writer × Event)

/-- Events of one writer. -/
def Log.by (w : Writer) (es : List Event) : Log := es.map (w, ·)

/-- The log with the writers by ascending names, those of each in their order. -/
def Log.grouped (l : Log) : Log := l.mergeSort fun a b => a.1.name ≤ b.1.name

namespace Node

/-- The scan of a volume, whether it is healthy or not. -/
def scan (n : Node) (view : DiskView) (check : StructureCheck) (v : Volume) : Scan.Outcome :=
  Scan.run ⟨⟨view, check, v.id⟩, v.root⟩ n.catalog n.registry

/-- What a worker leaves of a volume. -/
inductive WorkerResult where
  | report (r : ScanReport)
  | failure (f : WorkerFailure)
deriving DecidableEq, Repr

/-- What the log is told of a worker's result. -/
def WorkerResult.events : WorkerResult → List Event
  | report _ => []
  | failure f => [.scanCrashed f.volume f.root]

/-- The work of one worker. -/
def work (n : Node) (view : DiskView) (check : StructureCheck) (v : Volume) :
    WorkerResult × Node × Log :=
  let o := n.scan view check v
  let result := match o.report with
    | some r => .report r
    | none => .failure ⟨v.id, v.root, "scan worker panicked"⟩
  (result, ⟨o.registry, o.catalog⟩, Log.by (.worker v.id) o.events)

/-- The work of the workers of some volumes. -/
def workAll (n : Node) (view : DiskView) (check : StructureCheck) :
    List Volume → List WorkerResult × Node × Log
  | [] => ([], n, [])
  | v :: vs =>
    let (r, n, l) := n.work view check v
    let (rs, n, more) := n.workAll view check vs
    (r :: rs, n, l ++ more)

/-- The report that the results of workers make. -/
def collect (rs : List WorkerResult) : RecoveryReport where
  volumes := rs.filterMap fun | .report r => some r | .failure _ => none
  workerFailures := rs.filterMap fun | .report _ => none | .failure f => some f

/-- What the log is told at the end of a recovery. -/
def summary (r : RecoveryReport) (c : Catalog) : Event :=
  .recoveryComplete r.volumes.length r.totalLoaded r.totalSkipped r.failedVolumes.length c.size

/-- Scans every healthy volume. -/
def run (n : Node) (view : DiskView) (check : StructureCheck) : RecoveryReport × Node × Log :=
  let (rs, n', log) := n.workAll view check n.registry.healthy
  let report := collect rs
  (report, n', log ++ Log.by .main (rs.flatMap (·.events) ++ [summary report n'.catalog]))

/-- Recovery of a new node whose volumes have the given roots. -/
def recover (view : DiskView) (roots : List FilePath) : RecoveryReport × Node × Log :=
  let (registry, es) := Registry.empty.registerAll roots
  let (report, n, log) := ({ registry } : Node).run view .indexFile
  (report, n, Log.by .main es ++ log)

/-- Recovery of a new node that is told its volumes by a file. -/
def recoverFromConfig (view : DiskView) (file : FilePath) :
    Except Config.Error (RecoveryReport × Node × Log) :=
  (Config.load view file).map fun config => recover view config.volumes

end Node

end StorageNode
