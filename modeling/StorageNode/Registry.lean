import StorageNode.Log.Event

/-!
# The volumes of a node

Volumes are numbered in the order in which they are registered. Roots that are the same path by their
components are one volume, spelled as it was registered first. A volume that has failed stays failed.
-/

namespace StorageNode

/-- The volumes of a node, in the order of their numbers. -/
structure Registry where
  volumes : List Volume
deriving DecidableEq, Inhabited

namespace Registry

/-- A registry without volumes. -/
def empty : Registry := ⟨[]⟩

/-- The volume with a root. -/
def find? (r : Registry) (root : FilePath) : Option Volume := r.volumes.find? (·.root.same root)

/-- The number that the next volume gets. -/
def nextId (r : Registry) : VolumeId := UInt32.ofNat r.volumes.length

/-- The volume with a root, which is registered if it is new. -/
def register (r : Registry) (root : FilePath) : Volume × Registry × List Event :=
  match r.find? root with
  | some v => (v, r, [])
  | none =>
    let v : Volume := ⟨r.nextId, root, .healthy⟩
    (v, ⟨r.volumes ++ [v]⟩, [.volumeRegistered v.id root])

/-- Registers roots, one after another. -/
def registerAll (r : Registry) : List FilePath → Registry × List Event
  | [] => (r, [])
  | root :: roots =>
    let (_, r, es) := r.register root
    let (r, more) := r.registerAll roots
    (r, es ++ more)

/-- The volume with a number. -/
def get? (r : Registry) (v : VolumeId) : Option Volume := r.volumes[v.toNat]?

/-- The volumes that can be used. -/
def healthy (r : Registry) : List Volume := r.volumes.filter (·.isHealthy)

/-- The roots of the volumes that have failed. -/
def failedRoots (r : Registry) : List FilePath := (r.volumes.filter (·.isFailed)).map (·.root)

/-- The volume with a number has failed. -/
def isFailed (r : Registry) (v : VolumeId) : Bool := (r.get? v).any (·.isFailed)

/-- Marks the first volume with a root as failed. -/
def markFailed (root : FilePath) : List Volume → List Volume
  | [] => []
  | v :: vs => if v.root.same root then { v with state := .failed } :: vs else v :: markFailed root vs

/-- The registry after the failure of the volume with a root. The log names the root as it is reported.
-/
def fail (r : Registry) (root : FilePath) : Registry × List Event :=
  match r.find? root with
  | none => (r, [.unknownVolumeFailed root])
  | some v =>
    if v.isFailed then (r, []) else (⟨markFailed root r.volumes⟩, [.volumeFailed v.id root])

end Registry

end StorageNode
