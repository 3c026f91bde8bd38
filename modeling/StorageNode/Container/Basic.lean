import StorageNode.Descriptor.Basic
import StorageNode.Volume

/-!
# Containers

A container that has been loaded: what its descriptor says, the settings of its type, where it lies and
on which volume.
-/

namespace StorageNode

/-- A loaded key-value container. -/
structure Container where
  id : ContainerId
  layoutVersion : UInt32
  state : ContainerState
  metadata : SortedMap String String
  settings : ContainerSettings
  paths : ContainerPaths
  volume : VolumeId
deriving DecidableEq, Inhabited

namespace Container

/-- The type of a loaded container; only one type is ever loaded. -/
def kind (_ : Container) : ContainerKind := .keyValue

/-- The container that a descriptor describes. -/
def ofDescriptor (d : Descriptor) (settings : ContainerSettings) (paths : ContainerPaths)
    (volume : VolumeId) : Container where
  id := d.id
  layoutVersion := d.layoutVersion
  state := d.state
  metadata := d.metadata
  settings := settings
  paths := paths
  volume := volume

end Container

end StorageNode
