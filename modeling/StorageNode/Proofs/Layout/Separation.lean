import StorageNode.Proofs.FilePath.Parent
import StorageNode.Proofs.FilePath.Relocation

/-!
# Containers that keep to their own places

The paths of a container are found again from its descriptor, two levels up. Going up drops the separators
and dots that trail what is left, so the directory that is come to need not be spelled like the one the
container was given, `/v//7/.` say, but it has the same components (`FilePath.components_trimmed`), and so
have all paths that are joined to it (`ContainerPaths.ofDirectory_same`).

The paths of different containers of a cluster are apart. All paths of a container lie below its directory,
whose components end in its number and are as many for one container as for another; below two different
directories of one depth, no path is, holds or lies in another one (`FilePath.separate_of_below`). This takes
in any text as the name of the cluster, since what stands in front of the groups is the same for both.

`Layout.leads_back_and_separate` puts the two together.
-/

namespace StorageNode

namespace FilePath

/-! ## Paths that are apart -/

/-- A path that is the same place lies below a directory, too. -/
theorem Below.of_components_eq {p q : FilePath} (h : p.components = q.components) : Below p q := by
  show p.components <+: q.components
  exact h ▸ List.prefix_rfl

/-- Neither path is the other one, nor lies below it. -/
structure Separate (p q : FilePath) : Prop where
  distinct : p.components ≠ q.components
  not_below : ¬ Below q p
  not_above : ¬ Below p q

/-- Of two directories of one depth, only the same one holds a path that lies below the other. -/
theorem Below.components_eq {a b p q : FilePath} (hdepth : a.components.length = b.components.length)
    (hp : Below a p) (hq : Below b q) (hpq : Below p q) : a.components = b.components :=
  (List.prefix_of_prefix_length_le (hp.trans hpq) hq (Nat.le_of_eq hdepth)).eq_of_length hdepth

/-- **Paths below different directories of one depth are separate.** -/
theorem separate_of_below {a b p q : FilePath} (hdepth : a.components.length = b.components.length)
    (hne : a.components ≠ b.components) (hp : Below a p) (hq : Below b q) : p.Separate q where
  distinct heq := hne (hp.components_eq hdepth hq (.of_components_eq heq))
  not_below hqp := hne (hq.components_eq hdepth.symm hp hqp).symm
  not_above hpq := hne (hp.components_eq hdepth hq hpq)

end FilePath

/-! ## The paths of a container -/

namespace ContainerPaths

/-- All the paths of a container. -/
def all (paths : ContainerPaths) : List FilePath :=
  [paths.container, paths.metadata, paths.descriptor, paths.index, paths.chunks]

/-- The paths are the same places, one by one. -/
structure Same (paths paths' : ContainerPaths) : Prop where
  container : paths.container.components = paths'.container.components
  metadata : paths.metadata.components = paths'.metadata.components
  descriptor : paths.descriptor.components = paths'.descriptor.components
  index : paths.index.components = paths'.index.components
  chunks : paths.chunks.components = paths'.chunks.components

/-- A container in the same place has its files in the same places. -/
theorem ofDirectory_same {dir dir' : FilePath} (h : dir.components = dir'.components)
    (id : ContainerId) : (ofDirectory dir id).Same (ofDirectory dir' id) := by
  have hmetadata := FilePath.components_join_congr h Layout.isName_metadata
  exact {
    container := h
    metadata := hmetadata
    descriptor := FilePath.components_join_congr hmetadata (Layout.isName_descriptorName id)
    index := FilePath.components_join_congr hmetadata (Layout.isName_indexName id)
    chunks := FilePath.components_join_congr h Layout.isName_chunks }

/-- All paths of a container lie below its directory. -/
theorem below_of_mem_all {dir : FilePath} {id : ContainerId} {p : FilePath}
    (h : p ∈ (ofDirectory dir id).all) : FilePath.Below dir p := by
  have hdir := FilePath.Below.refl dir
  have hmetadata := hdir.join Layout.isName_metadata
  simp only [all, ofDirectory, List.mem_cons, List.not_mem_nil, or_false] at h
  rcases h with rfl | rfl | rfl | rfl | rfl
  · exact hdir
  · exact hmetadata
  · exact hmetadata.join (Layout.isName_descriptorName id)
  · exact hmetadata.join (Layout.isName_indexName id)
  · exact hdir.join Layout.isName_chunks

end ContainerPaths

/-! ## The layout -/

namespace Layout

variable {current : FilePath} {m n : ContainerId}

/-- Where a container is placed below its cluster: the group, and the number. -/
theorem components_place (current : FilePath) (id : ContainerId) :
    (current / groupName id / ContainerId.text id).components =
      current.components ++ [.name (groupName id), .name (ContainerId.text id)] := by
  rw [FilePath.components_join _ (ContainerId.isName_text id),
    FilePath.components_join _ (isName_groupName id), List.append_assoc]
  rfl

/-- **Different numbers give different places of one depth**, in one group or in two. -/
theorem place_ne (h : m ≠ n) :
    (current / groupName m / ContainerId.text m).components ≠
      (current / groupName n / ContainerId.text n).components := by
  intro heq
  rw [components_place, components_place] at heq
  obtain ⟨-, htext⟩ : groupName m = groupName n ∧ ContainerId.text m = ContainerId.text n := by
    simpa using heq
  have hread := ContainerId.ofName?_text n
  rw [← htext, ContainerId.ofName?_text m] at hread
  exact h (Option.some.inj hread)

theorem length_components_place (current : FilePath) (m n : ContainerId) :
    (current / groupName m / ContainerId.text m).components.length =
      (current / groupName n / ContainerId.text n).components.length := by
  rw [components_place, components_place, List.length_append, List.length_append]
  rfl

/-- **The layout can be inverted, and no two containers collide in it.** From the descriptor of a container,
wherever it lies, its paths are found again, each of them the same place. And whatever the root and the
cluster are called, no path of a container of the cluster is a path of another one, holds it or lies in
it. -/
theorem leads_back_and_separate :
    (∀ (dir : FilePath) (id : ContainerId), ∃ paths,
      ContainerPaths.ofDescriptor? (ContainerPaths.ofDirectory dir id).descriptor id = some paths ∧
      paths.Same (ContainerPaths.ofDirectory dir id)) ∧
    ∀ (root : FilePath) (cluster : String) (m n : ContainerId), m ≠ n →
      ∀ p ∈ (containerPaths root cluster m).all, ∀ q ∈ (containerPaths root cluster n).all,
        p.Separate q := by
  constructor
  · intro dir id
    exact ⟨_, ContainerPaths.ofDescriptor?_descriptor dir id,
      ContainerPaths.ofDirectory_same dir.components_trimmed id⟩
  · intro root cluster m n hne p hp q hq
    exact FilePath.separate_of_below (length_components_place _ m n) (place_ne hne)
      (ContainerPaths.below_of_mem_all hp) (ContainerPaths.below_of_mem_all hq)

/-- Container 7 and container 70, whose name begins with that of container 7 and which lies in the same
group, below a cluster that leads up again. -/
theorem leads_back_and_separate_neighbours :
    (7 : ContainerId) ≠ 70 ∧
    (containerPaths ⟨"/v"⟩ ".." 7).container ∈ (containerPaths ⟨"/v"⟩ ".." 7).all ∧
    (containerPaths ⟨"/v"⟩ ".." 70).descriptor ∈ (containerPaths ⟨"/v"⟩ ".." 70).all ∧
    (containerPaths ⟨"/v"⟩ ".." 7).container.Separate (containerPaths ⟨"/v"⟩ ".." 70).descriptor := by
  have hne : (7 : ContainerId) ≠ 70 := by decide
  have hcontainer : (containerPaths ⟨"/v"⟩ ".." 7).container ∈ (containerPaths ⟨"/v"⟩ ".." 7).all := by
    simp [ContainerPaths.all]
  have hdescriptor :
      (containerPaths ⟨"/v"⟩ ".." 70).descriptor ∈ (containerPaths ⟨"/v"⟩ ".." 70).all := by
    simp [ContainerPaths.all]
  exact ⟨hne, hcontainer, hdescriptor,
    leads_back_and_separate.2 ⟨"/v"⟩ ".." 7 70 hne _ hcontainer _ hdescriptor⟩

end Layout

end StorageNode
