import StorageNode.Container.Loading
import StorageNode.Registry

/-!
# Scanning a volume

The root of a volume holds one directory of a cluster, and the containers lie in the groups below its
`current`. A root that cannot be read, or that holds no such directory or several, fails the volume;
what is wrong further down concerns single groups and containers. A directory that should be a
container's but is not named by a number stops the walk.

What the walk meets is laid out first (`Scan.stops`), then visited one stop after another
(`Scan.visit`), each visit changing the catalog only. The report and the log are put together from
what the visits find (`Scan.report`).
-/

namespace StorageNode

/-- A container that was not loaded. -/
structure SkippedContainer where
  id : ContainerId
  dir : FilePath
  cause : LoadError
deriving DecidableEq, Repr

/-- What came of the scan of one volume. -/
structure ScanReport where
  volume : VolumeId
  root : FilePath
  loaded : List ContainerId := []
  skipped : List SkippedContainer := []
  failure : Option VolumeFault := none
  /-- The directory that stopped the walk. -/
  aborted : Option FilePath := none
deriving DecidableEq, Repr

namespace ScanReport

/-- The volume has failed. -/
def failed (r : ScanReport) : Bool := r.failure.isSome

/-- The containers that were skipped for causes of a class. -/
def skippedFor (r : ScanReport) (k : LoadErrorClass) : List SkippedContainer :=
  r.skipped.filter (·.cause.kind = k)

end ScanReport

/-- The text about a directory that stopped a walk. -/
def abortMessage (dir : FilePath) : String :=
  "container directory name is not a container id: " ++ Text.quoted dir.text

/-- A scan: how containers are loaded, and the root of the volume. -/
structure Scan extends Loading where
  root : FilePath

namespace Scan

/-! ## The walk -/

/-- The only directory in the root. -/
def cluster (s : Scan) : Except VolumeFault FilePath :=
  match s.view.subdirectories s.root with
  | .error e => .error (.unreadable s.root e)
  | .ok [] => .error (.noCluster s.root)
  | .ok [dir] => .ok dir
  | .ok dirs => .error (.manyClusters s.root dirs)

/-- What the walk meets. -/
inductive Stop where
  | unreadableGroup (dir : FilePath) (cause : DiskError)
  /-- A directory where containers are expected. -/
  | candidate (dir : FilePath)
deriving DecidableEq, Repr

/-- What the walk meets in a group. -/
def stopsIn (v : DiskView) (group : FilePath) : List Stop :=
  match v.subdirectories group with
  | .error e => [.unreadableGroup group e]
  | .ok dirs => dirs.map .candidate

/-- What the walk meets, groups by ascending names and the directories of each by theirs. -/
def stops (v : DiskView) (current : FilePath) : Except DiskError (List Stop) :=
  (v.subdirectories current).map (·.flatMap (stopsIn v))

/-- The number that a directory is named by. -/
def containerId? (dir : FilePath) : Option ContainerId := dir.fileName?.bind ContainerId.ofName?

/-! ## Visits -/

/-- What a visit finds. -/
inductive Finding where
  | loaded (id : ContainerId) (state : ContainerState)
  | skipped (s : SkippedContainer)
  | unreadableGroup (dir : FilePath) (cause : DiskError)
  | malformedName (dir : FilePath)
  | crashed
deriving DecidableEq, Repr

/-- The walk ends here. -/
def Finding.isLast : Finding → Bool
  | malformedName _ => true
  | crashed => true
  | _ => false

/-- What is found at a stop, the catalog after it, and what the catalog tells the log. -/
def visit (l : Loading) (c : Catalog) : Stop → Finding × Catalog × List Event
  | .unreadableGroup dir cause => (.unreadableGroup dir cause, c, [])
  | .candidate dir =>
    match containerId? dir with
    | none => (.malformedName dir, c, [])
    | some id =>
      match c.admit (l.examine id dir) with
      | (.loaded x, c, es) => (.loaded id x.state, c, es)
      | (.skipped cause, c, es) => (.skipped ⟨id, dir, cause⟩, c, es)
      | (.crashed, c, es) => (.crashed, c, es)

/-- What the log is told of a finding. -/
def Finding.events (v : VolumeId) : Finding → List Event
  | loaded id state => [.containerLoaded v id state]
  | skipped s => [.containerSkipped v s.id s.cause]
  | unreadableGroup dir cause => [.groupUnreadable v dir cause]
  | malformedName dir => [.nameMalformed v dir]
  | crashed => []

/-- What is found at stops up to the last one that is visited, the catalog behind it, and the log. -/
def visitAll (l : Loading) (c : Catalog) : List Stop → List Finding × Catalog × List Event
  | [] => ([], c, [])
  | stop :: rest =>
    let (f, c, es) := visit l c stop
    let es := es ++ f.events l.volume
    if f.isLast then ([f], c, es)
    else
      let (fs, c, more) := visitAll l c rest
      (f :: fs, c, es ++ more)

/-! ## Reports -/

/-- The report on a volume of which findings are known. -/
def report (s : Scan) (fs : List Finding) : ScanReport where
  volume := s.volume
  root := s.root
  loaded := fs.filterMap fun | .loaded id _ => some id | _ => none
  skipped := fs.filterMap fun | .skipped x => some x | _ => none
  aborted := fs.findSome? fun | .malformedName dir => some dir | _ => none

/-- What the log is told at the end of a walk. -/
def summary (r : ScanReport) : Event :=
  .scanComplete r.volume r.root r.loaded.length r.skipped.length r.aborted.isSome

/-- What a scan leaves: its report, unless it crashed, the catalog and the registry, and the log. -/
structure Outcome where
  report : Option ScanReport
  catalog : Catalog
  registry : Registry
  events : List Event
deriving DecidableEq

/-- Visits stops, and reports. -/
def walk (s : Scan) (c : Catalog) (r : Registry) (stops : List Stop) : Outcome :=
  let (fs, c, es) := visitAll s.toLoading c stops
  if fs.contains .crashed then ⟨none, c, r, es⟩
  else
    let report := s.report fs
    ⟨some report, c, r, es ++ [summary report]⟩

/-- Scans the volume. -/
def run (s : Scan) (c : Catalog) (r : Registry) : Outcome :=
  match s.cluster with
  | .error fault =>
    let (r, es) := r.fail s.root
    ⟨some { s.report [] with failure := some fault }, c, r,
      .volumeInvalid s.volume fault s.root :: es⟩
  | .ok dir =>
    let current := dir / Layout.currentName
    match stops s.view current with
    | .error e => ⟨some (s.report []), c, r, [.currentUnreadable s.volume current e]⟩
    | .ok stops => s.walk c r stops

end Scan

end StorageNode
