import StorageNode.Log.Event

/-!
# The catalog of containers

The catalog holds the loaded containers of all volumes under their numbers. A number is given once:
what comes first keeps it, and a later container with the same number is refused (`Catalog.insert`).
-/

namespace StorageNode

/-- The loaded containers of a node. -/
structure Catalog where
  containers : SortedMap ContainerId Container
deriving DecidableEq

namespace Catalog

/-- A catalog without containers. -/
def empty : Catalog := ⟨.empty⟩

instance : Inhabited Catalog := ⟨empty⟩

/-- The container with a number. -/
def get? (c : Catalog) (id : ContainerId) : Option Container := c.containers.get? id

/-- There is a container with the number. -/
def contains (c : Catalog) (id : ContainerId) : Bool := c.containers.contains id

/-- How many containers there are. -/
def size (c : Catalog) : Nat := c.containers.size

/-- There are no containers. -/
def isEmpty (c : Catalog) : Bool := c.size = 0

/-- The numbers of the containers, ascending. -/
def ids (c : Catalog) : List ContainerId := c.containers.keys

/-- The containers of a volume, by ascending numbers. -/
def containersOn (c : Catalog) (v : VolumeId) : List Container :=
  c.containers.values.filter (·.volume = v)

/-- The catalog with one container more, unless its number is taken. -/
def insert (c : Catalog) (x : Container) : Except DuplicateContainer Catalog :=
  match c.get? x.id with
  | some old => .error ⟨x.id, old.volume, x.volume⟩
  | none => .ok ⟨c.containers.insert x.id x⟩

/-- What the log tells of an insertion. -/
def inserted (x : Container) : Event := .containerInserted x.volume x.id

end Catalog

end StorageNode
