import StorageNode.Log.Event

/-!
# Placing containers

A new container is placed on a volume in an order that a crash cannot harm: its directories first, then
an empty index, and the descriptor last. What is cut off before is a directory that a scan skips.
-/

namespace StorageNode

namespace Placement

/-- Why a container is not placed. -/
inductive Error where
  | disk (cause : DiskError)
  | descriptor (cause : Descriptor.Error)
deriving DecidableEq, Repr

/-- The text of an error. -/
def Error.message : Error → String
  | disk cause => "I/O error: " ++ cause.message
  | descriptor cause => cause.message

/-- Makes the directories of a container. -/
def makeDirectories (root : FilePath) (cluster : String) (id : ContainerId) :
    DiskTask DiskError ContainerPaths := do
  let paths := Layout.containerPaths root cluster id
  Disk.makePath paths.metadata
  Disk.makePath paths.chunks
  return paths

/-- Makes the directories of a container, and its index if it has none. -/
def prepare (root : FilePath) (cluster : String) (id : ContainerId) :
    DiskTask DiskError ContainerPaths := do
  let paths ← makeDirectories root cluster id
  let _ ← Disk.openFile paths.index
  return paths

/-- Places a new key-value container on a volume. -/
def provision (root : FilePath) (cluster : String) (id : ContainerId)
    (settings : ContainerSettings) (device : Device := .sound) : DiskTask Error ContainerPaths := do
  let paths ← (prepare root cluster id).mapError Error.disk
  (Descriptor.save paths.descriptor (.keyValue id settings) device).mapError Error.descriptor
  return paths

/-- What the log tells of a new container. -/
def provisioned (id : ContainerId) (paths : ContainerPaths) : Event :=
  .containerProvisioned id paths.container

end Placement

end StorageNode
