import StorageNode.FilePath

/-!
# Volumes

A volume is a disk or a directory on one that containers are stored on. The node knows it by a number
and by the path of its root.
-/

namespace StorageNode

/-- The number of a volume on its node. -/
abbrev VolumeId := UInt32

/-- The name of a volume in messages. -/
def VolumeId.label (v : VolumeId) : String := "vol-" ++ toString v.toNat

/-- Whether a volume can be used. -/
inductive VolumeState where
  | healthy
  | failed
deriving DecidableEq, Inhabited, Repr

/-- The word for a state. -/
def VolumeState.label : VolumeState → String
  | healthy => "Healthy"
  | failed => "Failed"

/-- A volume of the node. -/
structure Volume where
  id : VolumeId
  root : FilePath
  state : VolumeState
deriving DecidableEq, Inhabited, Repr

/-- The volume can be used. -/
def Volume.isHealthy (v : Volume) : Bool := v.state = .healthy

/-- The volume has failed. -/
def Volume.isFailed (v : Volume) : Bool := v.state = .failed

end StorageNode
