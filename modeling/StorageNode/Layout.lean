import StorageNode.FilePath

/-!
# Where a volume keeps its containers

The tree of a volume is `<root>/<cluster>/current/<group>/<id>`, and a container directory holds
`metadata`, with the descriptor and the index file, and `chunks`. Groups of a thousand are how new
containers are placed; any name of a group is accepted on reading.
-/

namespace StorageNode

/-- The number of a container. -/
abbrev ContainerId := UInt64

/-- Digits of the number of a container, in base ten. -/
def ContainerId.text (id : ContainerId) : String := toString (UInt64.toNat id)

/-- The number that a directory name stands for: decimal digits only, at least one, below
`2 ^ 64`. -/
def ContainerId.ofName? (name : String) : Option ContainerId :=
  let cs := name.toList
  if cs ≠ [] && cs.all Char.isDigit then
    let n := Nat.ofDigitChars 10 cs 0
    if n < UInt64.size then some (UInt64.ofNat n) else none
  else none

namespace Layout

/-- The directory of a cluster that holds its groups. -/
def currentName : String := "current"

/-- The name of the group a container is placed in. -/
def groupName (id : ContainerId) : String := "containerDir" ++ toString (id.toNat / 1000)

/-- The name of a container's descriptor file. -/
def descriptorName (id : ContainerId) : String := ContainerId.text id ++ ".container"

/-- The name of a container's index file. -/
def indexName (id : ContainerId) : String := ContainerId.text id ++ "-dn-container.db"

end Layout

/-- The paths of one container. -/
structure ContainerPaths where
  container : FilePath
  metadata : FilePath
  descriptor : FilePath
  index : FilePath
  chunks : FilePath
deriving DecidableEq, Inhabited, Repr

namespace ContainerPaths

/-- The paths of the container that lies in a directory. -/
def ofDirectory (dir : FilePath) (id : ContainerId) : ContainerPaths :=
  let metadata := dir / "metadata"
  { container := dir
    metadata := metadata
    descriptor := metadata / Layout.descriptorName id
    index := metadata / Layout.indexName id
    chunks := dir / "chunks" }

/-- The paths of the container whose descriptor lies at a path: its directory is two levels up. -/
def ofDescriptor? (file : FilePath) (id : ContainerId) : Option ContainerPaths :=
  (file.parent?.bind FilePath.parent?).map (ofDirectory · id)

end ContainerPaths

namespace Layout

/-- The directory that holds the groups of a cluster. -/
def currentDir (root : FilePath) (cluster : String) : FilePath := root / cluster / currentName

/-- The paths a new container gets. -/
def containerPaths (root : FilePath) (cluster : String) (id : ContainerId) : ContainerPaths :=
  .ofDirectory (currentDir root cluster / groupName id / ContainerId.text id) id

end Layout

end StorageNode
