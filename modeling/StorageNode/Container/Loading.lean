import StorageNode.Catalog
import StorageNode.Disk.View

/-!
# Loading a container

A container is loaded from its directory if its files are there, its descriptor can be read, is its own
and declares a supported type with settings of that type, and if a structure check accepts what lies in
the directory (`Loading.examine`). The catalog has the last word on its number (`Catalog.admit`). The
check is a parameter, and may also crash.
-/

namespace StorageNode

/-- How a structure check ends. -/
inductive Verdict where
  | accepted
  | refused (fault : StructureFault)
  | crashed
deriving DecidableEq, Repr

/-- A check of the files of a container, given what its descriptor says. -/
abbrev StructureCheck :=
  DiskView → Descriptor → ContainerSettings → ContainerPaths → Verdict

/-- The check that the index file is there. -/
def StructureCheck.indexFile : StructureCheck := fun v _ _ paths =>
  if v.isFile paths.index then .accepted else .refused (.missingIndex paths.index)

/-- The check that accepts everything, but crashes on one container and refuses another. -/
def StructureCheck.special (crashOn refuse : Option ContainerId) : StructureCheck := fun _ d _ _ =>
  if crashOn = some d.id then .crashed
  else if refuse = some d.id then .refused (.other ("rejected " ++ ContainerId.text d.id))
  else .accepted

/-- How an attempt to load a container ends. -/
inductive Attempt where
  | loaded (c : Container)
  | skipped (cause : LoadError)
  | crashed
deriving DecidableEq

/-- What containers are loaded with: what is seen of the disk, how their files are checked, and the
volume they are on. -/
structure Loading where
  view : DiskView
  check : StructureCheck
  volume : VolumeId

namespace Loading

/-- The container that a descriptor describes, at given paths. -/
def validate (l : Loading) (d : Descriptor) (paths : ContainerPaths) : Attempt :=
  if !d.kind.isSupported then .skipped (.unsupportedKind d.id d.kind.tag)
  else
    match d.settings? with
    | .error m => .skipped (.payloadMismatch d.id d.kind.tag m)
    | .ok settings =>
      match l.check l.view d settings paths with
      | .refused fault => .skipped (.badStructure d.id fault)
      | .crashed => .crashed
      | .accepted => .loaded (.ofDescriptor d settings paths l.volume)

/-- The container with a number whose descriptor is in a file. -/
def examineFile (l : Loading) (id : ContainerId) (file : FilePath) : Attempt :=
  match Descriptor.load l.view file with
  | .error e => .skipped (.descriptor id e)
  | .ok d =>
    if d.id ≠ id then .skipped (.idMismatch id d.id file)
    else
      match ContainerPaths.ofDescriptor? file id with
      | none => .skipped (.missingMetadata id file)
      | some paths => l.validate d paths

/-- The container with a number that lies in a directory. -/
def examine (l : Loading) (id : ContainerId) (dir : FilePath) : Attempt :=
  let paths := ContainerPaths.ofDirectory dir id
  if !l.view.isDirectory paths.metadata then .skipped (.missingMetadata id paths.metadata)
  else if !l.view.isFile paths.descriptor then .skipped (.missingDescriptor id paths.descriptor)
  else l.examineFile id paths.descriptor

end Loading

/-- Takes the container of an attempt into the catalog; refused if its number is taken. -/
def Catalog.admit (c : Catalog) (a : Attempt) : Attempt × Catalog × List Event :=
  match a with
  | .loaded x =>
    match c.insert x with
    | .error e => (.skipped (.duplicate e), c, [])
    | .ok c' => (.loaded x, c', [Catalog.inserted x])
  | a => (a, c, [])

end StorageNode
