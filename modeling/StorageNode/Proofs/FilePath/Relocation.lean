import StorageNode.Proofs.Layout

/-!
# Paths under another root

A path below a directory is written with another directory in its place (`FilePath.moved`): what follows the
components of the one is joined to the other. A path that is not below the directory stays as it is. Joining
a name and moving may be done in either order (`FilePath.moved_join`), so the paths of a container below the
one directory are moved to those of the container below the other (`ContainerPaths.ofDirectory_moved`).
-/

namespace StorageNode

namespace FilePath

/-- How a component is written. -/
def Component.text : Component → String
  | root => "/"
  | here => "."
  | up => ".."
  | name s => s

/-- The path lies below a directory, or is the directory. -/
def Below (a p : FilePath) : Prop := a.components <+: p.components

instance (a p : FilePath) : Decidable (Below a p) :=
  inferInstanceAs (Decidable (a.components <+: p.components))

/-- **The path with the directory `b` in place of the directory `a`**, if it lies below `a`. -/
def moved (a b p : FilePath) : FilePath :=
  if Below a p then (p.components.drop a.components.length).foldl (fun q c => q / c.text) b else p

variable {a b p : FilePath} {name : String}

theorem Below.refl (a : FilePath) : Below a a := List.prefix_rfl

theorem Below.join (h : Below a p) (hname : IsName name) : Below a (p / name) := by
  unfold Below
  rw [components_join p hname]
  exact h.trans (List.prefix_append _ _)

/-- The directory itself gives way to the other one. -/
theorem moved_self (a b : FilePath) : moved a b a = b := by
  rw [moved, if_pos (Below.refl a), List.drop_length, List.foldl_nil]

/-- **What is joined to a path below the directory stays joined to it.** -/
theorem moved_join (h : Below a p) (hname : IsName name) : moved a b (p / name) = moved a b p / name := by
  rw [moved, if_pos (h.join hname), moved, if_pos h, components_join p hname,
    List.drop_append_of_le_length h.length_le, List.foldl_append]
  rfl

/-- So it is with each of several names. -/
theorem map_moved_join (h : Below a p) {names : List String} (hnames : ∀ n ∈ names, IsName n) :
    (names.map (p / ·)).map (moved a b) = names.map (moved a b p / ·) := by
  rw [List.map_map]
  exact List.map_congr_left fun n hn => moved_join h (hnames n hn)

end FilePath

/-! ## The paths of a container -/

namespace ContainerPaths

/-- The paths, each carried over. -/
def mapPaths (f : FilePath → FilePath) (paths : ContainerPaths) : ContainerPaths where
  container := f paths.container
  metadata := f paths.metadata
  descriptor := f paths.descriptor
  index := f paths.index
  chunks := f paths.chunks

variable {a b dir : FilePath}

/-- The paths of a container are moved with its directory. -/
theorem ofDirectory_moved (h : FilePath.Below a dir) (id : ContainerId) :
    ofDirectory (FilePath.moved a b dir) id = (ofDirectory dir id).mapPaths (FilePath.moved a b) := by
  have hmetadata := h.join Layout.isName_metadata
  simp only [ofDirectory, mapPaths, FilePath.moved_join h Layout.isName_metadata,
    FilePath.moved_join h Layout.isName_chunks,
    FilePath.moved_join hmetadata (Layout.isName_descriptorName id),
    FilePath.moved_join hmetadata (Layout.isName_indexName id)]

end ContainerPaths

end StorageNode
