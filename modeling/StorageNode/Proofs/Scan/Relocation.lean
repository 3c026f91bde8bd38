import StorageNode.Proofs.FilePath.Relocation
import StorageNode.Proofs.Scan.Grouped
import StorageNode.Proofs.Scan.Isolation

/-!
# A scan sees only what the layout names

Two volumes look alike to a scan (`Scan.Alike`) if the directories on its way have sub-directories of the
same names, or cannot be listed for the same cause, and if the same is seen of the files of each container.
`Scan.run_relocates` says that two scans of such volumes come to the same: the second report, and what the
second catalog gains, are those of the first with one root in place of the other (`FilePath.moved`).
In which order entries are listed, what else lies in the directories, what chunks hold and where the volume
is mounted, makes no difference: a volume that is mounted elsewhere, with its listings turned round and rid
of all that is no directory, looks alike (`Scan.alike_remounted`).

Sorting leaves no choice among lists with the same members (`DiskView.directoryNames_congr`), so each step
of the walk has one counterpart. What is decided on a directory is decided on its counterpart
(`Loading.Decided.moved`), and the induction over the walk is `Scan.Walks.moved`.
-/

namespace StorageNode

open FilePath (IsName moved Below)

/-! ## Results under another root -/

/-- A fault of the files of a container, with its paths carried over. -/
def StructureFault.mapPaths (f : FilePath → FilePath) : StructureFault → StructureFault
  | missingIndex file => missingIndex (f file)
  | other words => other words

/-- A verdict, with its paths carried over. -/
def Verdict.mapPaths (f : FilePath → FilePath) : Verdict → Verdict
  | accepted => accepted
  | refused fault => refused (fault.mapPaths f)
  | crashed => crashed

/-- An error of a descriptor, with its paths carried over. -/
def Descriptor.Error.mapPaths (f : FilePath → FilePath) : Descriptor.Error → Descriptor.Error
  | disk file cause => disk (f file) cause
  | malformed file cause => malformed (f file) cause
  | unwritable cause => unwritable cause

/-- A cause, with its paths carried over. -/
def LoadError.mapPaths (f : FilePath → FilePath) : LoadError → LoadError
  | missingMetadata id dir => missingMetadata id (f dir)
  | missingDescriptor id file => missingDescriptor id (f file)
  | descriptor id cause => descriptor id (cause.mapPaths f)
  | idMismatch expected found file => idMismatch expected found (f file)
  | unsupportedKind id tag => unsupportedKind id tag
  | payloadMismatch id tag cause => payloadMismatch id tag cause
  | badStructure id fault => badStructure id (fault.mapPaths f)
  | duplicate cause => duplicate cause

/-- A container, with its paths carried over. -/
def Container.mapPaths (f : FilePath → FilePath) (x : Container) : Container :=
  { x with paths := x.paths.mapPaths f }

/-- An attempt, with its paths carried over. -/
def Attempt.mapPaths (f : FilePath → FilePath) : Attempt → Attempt
  | loaded x => loaded (x.mapPaths f)
  | skipped cause => skipped (cause.mapPaths f)
  | crashed => crashed

/-- A skipped container, with its paths carried over. -/
def SkippedContainer.mapPaths (f : FilePath → FilePath) (s : SkippedContainer) : SkippedContainer :=
  ⟨s.id, f s.dir, s.cause.mapPaths f⟩

/-- A fault of a volume, with its paths carried over. -/
def VolumeFault.mapPaths (f : FilePath → FilePath) : VolumeFault → VolumeFault
  | unreadable root cause => unreadable (f root) cause
  | noCluster root => noCluster (f root)
  | manyClusters root found => manyClusters (f root) (found.map f)

/-- **A report, with its paths carried over.** All else stays, the order of its lists included. -/
def ScanReport.mapPaths (f : FilePath → FilePath) (r : ScanReport) : ScanReport where
  volume := r.volume
  root := f r.root
  loaded := r.loaded
  skipped := r.skipped.map (·.mapPaths f)
  failure := r.failure.map (·.mapPaths f)
  aborted := r.aborted.map f

/-- **Two catalogs that have gained the same from one catalog**, the second one with the paths carried
over. -/
structure Catalog.GainsAlike (f : FilePath → FilePath) (c₀ c k : Catalog) : Prop where
  kept : ∀ id x, c₀.get? id = some x → c.get? id = some x ∧ k.get? id = some x
  gained : ∀ id, c₀.get? id = none → k.get? id = (c.get? id).map (·.mapPaths f)

namespace Catalog.GainsAlike

variable {f : FilePath → FilePath} {c₀ c c' k k' : Catalog} {id : ContainerId} {x : Container}

theorem refl (f : FilePath → FilePath) (c : Catalog) : GainsAlike f c c c where
  kept _ _ h := ⟨h, h⟩
  gained _ h := by simp [h]

/-- What is vacant in the first catalog was vacant before, and is in the second. -/
theorem vacant (h : GainsAlike f c₀ c k) (hc : c.get? id = none) :
    c₀.get? id = none ∧ k.get? id = none := by
  cases hold : c₀.get? id with
  | some old => simp [(h.kept id old hold).1] at hc
  | none => exact ⟨rfl, by rw [h.gained id hold, hc, Option.map_none]⟩

/-- A number that is taken in the first catalog is taken in the second, on the same volume. -/
theorem exists_of_some (h : GainsAlike f c₀ c k) (hc : c.get? id = some x) :
    ∃ y, k.get? id = some y ∧ y.volume = x.volume := by
  cases hold : c₀.get? id with
  | some old =>
      obtain ⟨hfirst, hsecond⟩ := h.kept id old hold
      obtain rfl := Option.some.inj (hfirst.symm.trans hc)
      exact ⟨_, hsecond, rfl⟩
  | none => exact ⟨x.mapPaths f, by rw [h.gained id hold, hc, Option.map_some], rfl⟩

/-- Both gain the same container. -/
theorem gains (h : GainsAlike f c₀ c k) (hg : c.Gains x c') (hg' : k.Gains (x.mapPaths f) k') :
    GainsAlike f c₀ c' k' where
  kept id y hy := by
    obtain ⟨hfirst, hsecond⟩ := h.kept id y hy
    exact ⟨hg.get?_of_some hfirst, hg'.get?_of_some hsecond⟩
  gained id hid := by
    rw [hg.entries, hg'.entries, h.gained id hid]
    by_cases hx : id = x.id
    · rw [if_pos hx, if_pos (show id = (x.mapPaths f).id from hx), Option.map_some]
    · rw [if_neg hx, if_neg (show ¬ id = (x.mapPaths f).id from hx)]

end Catalog.GainsAlike

/-! ## What looks alike -/

namespace DiskView

/-- The name is that of a sub-directory. -/
def HasDirectory (v : DiskView) (dir : FilePath) (n : String) : Prop :=
  ∃ names, v.list dir = .ok names ∧ n ∈ names ∧ v.isDirectory (dir / n) = true

/-- **The two directories list alike**: they cannot be listed, for one cause, or they have sub-directories
of the same names. -/
inductive ListsAlike (v w : DiskView) (p q : FilePath) : Prop
  | unlisted {e : DiskError} (h : v.list p = .error e) (h' : w.list q = .error e)
  | listed {names names' : List String} (h : v.list p = .ok names) (h' : w.list q = .ok names')
      (hsame : ∀ n, v.HasDirectory p n ↔ w.HasDirectory q n)

/-- The only sub-directory of the root has the name. -/
def HasCluster (v : DiskView) (root : FilePath) (c : String) : Prop :=
  ∀ n, v.HasDirectory root n ↔ n = c

section

variable {v w : DiskView} {p q : FilePath} {n : String}

theorem mem_directoryNames_iff : n ∈ v.directoryNames p ↔ v.HasDirectory p n := by
  cases hlist : v.list p with
  | error e => simp [directoryNames_of_error hlist, HasDirectory, hlist]
  | ok names =>
      rw [directoryNames_of_list hlist, List.mem_filter, (List.mergeSort_perm names _).mem_iff]
      simp [HasDirectory, hlist]

/-- A sub-directory has a name. -/
theorem HasDirectory.isName (hv : v.WellNamed) (h : v.HasDirectory p n) : IsName n := by
  obtain ⟨names, hlist, hn, -⟩ := h
  exact hv.isName hlist n hn

/-- Sorted names are determined by which names there are. -/
theorem directoryNames_congr (hv : v.WellNamed) (hw : w.WellNamed)
    (h : ∀ n, v.HasDirectory p n ↔ w.HasDirectory q n) : v.directoryNames p = w.directoryNames q := by
  refine (directoryNames_ascending hv p).eq_of_mem_iff (directoryNames_ascending hw q) fun n => ?_
  rw [mem_directoryNames_iff, mem_directoryNames_iff, h]

/-- **Directories that list alike show sub-directories of the same names**, in one order. -/
theorem ListsAlike.subdirectories_moved (hv : v.WellNamed) (hw : w.WellNamed) {a b : FilePath}
    (hp : Below a p) (h : v.ListsAlike w p (moved a b p)) :
    w.subdirectories (moved a b p) = (v.subdirectories p).map (·.map (moved a b)) := by
  cases h with
  | unlisted h h' =>
      rw [subdirectories_eq_error_iff.mpr h, subdirectories_eq_error_iff.mpr h']
      rfl
  | listed h h' hsame =>
      have hnames : ∀ n ∈ v.directoryNames p, IsName n := fun n hn =>
        (mem_directoryNames_iff.mp hn).isName hv
      rw [subdirectories_eq_directoryNames h, subdirectories_eq_directoryNames h', Except.map,
        FilePath.map_moved_join hp hnames, directoryNames_congr hv hw hsame]

/-- What is shown are the sub-directories. -/
theorem exists_hasDirectory_of_mem {ds : List FilePath} {d : FilePath} (h : v.subdirectories p = .ok ds)
    (hd : d ∈ ds) : ∃ n, v.HasDirectory p n ∧ d = p / n := by
  cases hlist : v.list p with
  | error e => simp [subdirectories_eq_error_iff.mpr hlist] at h
  | ok names =>
      rw [subdirectories_eq_directoryNames hlist] at h
      obtain rfl := Except.ok.inj h
      obtain ⟨n, hn, rfl⟩ := List.mem_map.mp hd
      exact ⟨n, mem_directoryNames_iff.mp hn, rfl⟩

/-- A cluster has a name. -/
theorem HasCluster.isName (hv : v.WellNamed) (h : v.HasCluster p n) : IsName n :=
  ((h n).mpr rfl).isName hv

/-- A root that shows one sub-directory has a cluster. -/
theorem exists_hasCluster {root cluster : FilePath} (h : v.subdirectories root = .ok [cluster]) :
    ∃ c, v.HasCluster root c ∧ cluster = root / c := by
  cases hlist : v.list root with
  | error e => simp [subdirectories_eq_error_iff.mpr hlist] at h
  | ok names =>
      rw [subdirectories_eq_directoryNames hlist] at h
      obtain ⟨c, hnames, hcluster⟩ := List.map_eq_singleton_iff.mp (Except.ok.inj h)
      refine ⟨c, fun n => ?_, hcluster.symm⟩
      rw [← mem_directoryNames_iff, hnames, List.mem_singleton]

end

end DiskView

/-- The first view shows of the first paths what the second one shows of the second paths: whether the files
of the container are there, and its descriptor. -/
structure ContainerPaths.SeenAs (paths paths' : ContainerPaths) (v w : DiskView) : Prop where
  metadata : v.isDirectory paths.metadata = w.isDirectory paths'.metadata
  descriptor : v.isFile paths.descriptor = w.isFile paths'.descriptor
  content : v.read paths.descriptor = w.read paths'.descriptor
  index : v.isFile paths.index = w.isFile paths'.index

namespace Loading

section

variable {l l' : Loading} {a b dir : FilePath} {id : ContainerId} {d : Descriptor}
  {settings : ContainerSettings} {c₀ c c' k : Catalog} {x : Attempt}

/-! ## Decisions under another root -/

/-- The directory lies below the one root, and under the other one the same is seen of its container. -/
structure Moves (l l' : Loading) (a b dir : FilePath) (id : ContainerId) : Prop where
  below : Below a dir
  seen : (ContainerPaths.ofDirectory dir id).SeenAs (.ofDirectory (moved a b dir) id) l.view l'.view

namespace Moves

theorem metadata_eq (h : Moves l l' a b dir id) :
    moved a b (dir / "metadata") = moved a b dir / "metadata" :=
  FilePath.moved_join h.below Layout.isName_metadata

theorem descriptor_eq (h : Moves l l' a b dir id) :
    moved a b (dir / "metadata" / Layout.descriptorName id) =
      moved a b dir / "metadata" / Layout.descriptorName id := by
  rw [FilePath.moved_join (h.below.join Layout.isName_metadata) (Layout.isName_descriptorName id),
    h.metadata_eq]

theorem metadata (h : Moves l l' a b dir id) : l'.view.isDirectory (moved a b dir / "metadata") =
    l.view.isDirectory (dir / "metadata") := h.seen.metadata.symm

theorem descriptor (h : Moves l l' a b dir id) :
    l'.view.isFile (moved a b dir / "metadata" / Layout.descriptorName id) =
      l.view.isFile (dir / "metadata" / Layout.descriptorName id) := h.seen.descriptor.symm

/-- The descriptor is read alike. -/
theorem load_of_ok (h : Moves l l' a b dir id)
    (hl : Descriptor.load l.view (dir / "metadata" / Layout.descriptorName id) = .ok d) :
    Descriptor.load l'.view (moved a b dir / "metadata" / Layout.descriptorName id) = .ok d := by
  have hread : l'.view.read (moved a b dir / "metadata" / Layout.descriptorName id) =
      l.view.read (dir / "metadata" / Layout.descriptorName id) := h.seen.content.symm
  rw [Descriptor.load] at hl ⊢
  rw [hread]
  cases hbytes : l.view.read (dir / "metadata" / Layout.descriptorName id) with
  | error e => simp [hbytes] at hl
  | ok bytes =>
      simp only [hbytes] at hl ⊢
      cases hd : Descriptor.ofBytes bytes with
      | error e => simp [hd, Except.mapError] at hl
      | ok d' => simpa [hd, Except.mapError] using hl

/-- So are the errors of reading it. -/
theorem load_of_error (h : Moves l l' a b dir id) {e : Descriptor.Error}
    (hl : Descriptor.load l.view (dir / "metadata" / Layout.descriptorName id) = .error e) :
    Descriptor.load l'.view (moved a b dir / "metadata" / Layout.descriptorName id) =
      .error (e.mapPaths (moved a b)) := by
  have hread : l'.view.read (moved a b dir / "metadata" / Layout.descriptorName id) =
      l.view.read (dir / "metadata" / Layout.descriptorName id) := h.seen.content.symm
  rw [Descriptor.load] at hl ⊢
  rw [hread, ← h.descriptor_eq]
  cases hbytes : l.view.read (dir / "metadata" / Layout.descriptorName id) with
  | error e' =>
      simp only [hbytes] at hl ⊢
      obtain rfl := Except.error.inj hl
      rfl
  | ok bytes =>
      simp only [hbytes] at hl ⊢
      cases hd : Descriptor.ofBytes bytes with
      | ok d' => simp [hd, Except.mapError] at hl
      | error e' =>
          rw [hd] at hl
          obtain rfl := Except.error.inj hl
          rfl

theorem found (h : Moves l l' a b dir id) (hf : l.Found dir id) : l'.Found (moved a b dir) id where
  metadata := h.metadata.trans hf.metadata
  descriptor := h.descriptor.trans hf.descriptor

theorem parsed (h : Moves l l' a b dir id) (hp : l.Parsed dir id d) :
    l'.Parsed (moved a b dir) id d where
  found := h.found hp.found
  load := h.load_of_ok hp.load
  own := hp.own

theorem typed (h : Moves l l' a b dir id) (ht : l.Typed dir id d settings) :
    l'.Typed (moved a b dir) id d settings where
  parsed := h.parsed ht.parsed
  supported := ht.supported
  projected := ht.projected

/-- The check comes to the same verdict. -/
theorem verdict (h : Moves l l' a b dir id) (hl : CheckAlike l l') :
    l'.check l'.view d settings (.ofDirectory (moved a b dir) id) =
      (l.check l.view d settings (.ofDirectory dir id)).mapPaths (moved a b) := by
  have hindex : (ContainerPaths.ofDirectory (moved a b dir) id).index =
      moved a b (ContainerPaths.ofDirectory dir id).index := by
    rw [ContainerPaths.ofDirectory_moved h.below id]
    rfl
  rw [hl.indexFile, hl.indexFile', StructureCheck.indexFile, StructureCheck.indexFile, ← h.seen.index]
  cases l.view.isFile (ContainerPaths.ofDirectory dir id).index with
  | true => rfl
  | false => simp [Verdict.mapPaths, StructureFault.mapPaths, hindex]

/-- The descriptor describes the same container. -/
theorem described_eq (h : Moves l l' a b dir id) (hl : CheckAlike l l') :
    l'.described (moved a b dir) id d settings =
      (l.described dir id d settings).mapPaths (moved a b) := by
  rw [described, described, Container.mapPaths, hl.volume, ContainerPaths.ofDirectory_moved h.below id]

end Moves

/-- **What is decided on a directory is decided on its counterpart**, from catalogs that have gained the
same so far. -/
theorem Decided.moved (hl : CheckAlike l l') (hdir : Moves l l' a b dir id)
    (hk : Catalog.GainsAlike (moved a b) c₀ c k) (h : l.Decided dir id c x c') :
    ∃ k', l'.Decided (FilePath.moved a b dir) id k (x.mapPaths (FilePath.moved a b)) k' ∧
      Catalog.GainsAlike (FilePath.moved a b) c₀ c' k' := by
  have hmetadata := hdir.metadata_eq
  have hdescriptor := hdir.descriptor_eq
  cases h with
  | missingMetadata h =>
      refine ⟨k, ?_, hk⟩
      simp only [Attempt.mapPaths, LoadError.mapPaths, hmetadata]
      exact .missingMetadata (hdir.metadata.trans h)
  | missingDescriptor hm h =>
      refine ⟨k, ?_, hk⟩
      simp only [Attempt.mapPaths, LoadError.mapPaths, hdescriptor]
      exact .missingDescriptor (hdir.metadata.trans hm) (hdir.descriptor.trans h)
  | unreadable hf h => exact ⟨k, .unreadable (hdir.found hf) (hdir.load_of_error h), hk⟩
  | foreign hf hload h =>
      refine ⟨k, ?_, hk⟩
      simp only [Attempt.mapPaths, LoadError.mapPaths, hdescriptor]
      exact .foreign (hdir.found hf) (hdir.load_of_ok hload) h
  | unsupported hp h => exact ⟨k, .unsupported (hdir.parsed hp) h, hk⟩
  | payload hp hkind h => exact ⟨k, .payload (hdir.parsed hp) hkind h, hk⟩
  | «structure» ht h =>
      exact ⟨k, .structure (hdir.typed ht) (by rw [hdir.verdict hl, h]; rfl), hk⟩
  | @duplicate _ _ old ht ha h =>
      obtain ⟨old', hold', hvolume⟩ := hk.exists_of_some h
      refine ⟨k, ?_, hk⟩
      simp only [Attempt.mapPaths, LoadError.mapPaths, ← hvolume, ← hl.volume]
      exact .duplicate (hdir.typed ht) (by rw [hdir.verdict hl, ha]; rfl) hold'
  | @loaded d settings _ ht ha hg =>
      have hvacant : k.get? (l'.described (FilePath.moved a b dir) id d settings).id = none :=
        (hk.vacant hg.vacant).2
      obtain ⟨k', -, hg'⟩ := Catalog.admit_of_none hvacant
      rw [hdir.described_eq hl] at hg'
      refine ⟨k', ?_, hk.gains hg hg'⟩
      rw [Attempt.mapPaths, ← hdir.described_eq hl] at *
      exact .loaded (hdir.typed ht) (by rw [hdir.verdict hl, ha]; rfl) hg'

end

end Loading

namespace Scan

/-! ## Walks under another root -/

/-- A stop, with its paths carried over. -/
def Stop.mapPaths (f : FilePath → FilePath) : Stop → Stop
  | unreadableGroup dir cause => unreadableGroup (f dir) cause
  | candidate dir => candidate (f dir)

/-- A finding, with its paths carried over. -/
def Finding.mapPaths (f : FilePath → FilePath) : Finding → Finding
  | loaded id state => loaded id state
  | skipped s => skipped (s.mapPaths f)
  | unreadableGroup dir cause => unreadableGroup (f dir) cause
  | malformedName dir => malformedName (f dir)
  | crashed => crashed

theorem finding_mapPaths (f : FilePath → FilePath) (id : ContainerId) (dir : FilePath) (x : Attempt) :
    finding id (f dir) (x.mapPaths f) = (finding id dir x).mapPaths f := by
  cases x <;> rfl

/-- What is reported of findings carries over with them. -/
theorem report_mapPaths (s : Scan) (w : DiskView) (root : FilePath) (fs : List Finding) :
    report { s with view := w, root := root } (fs.map (·.mapPaths (moved s.root root))) =
      (s.report fs).mapPaths (moved s.root root) := by
  have hloaded : (fs.map (·.mapPaths (moved s.root root))).filterMap Finding.loaded? =
      fs.filterMap Finding.loaded? := by
    rw [List.filterMap_map]
    exact List.filterMap_congr fun x _ => by cases x <;> rfl
  have hskipped : (fs.map (·.mapPaths (moved s.root root))).filterMap Finding.skipped? =
      (fs.filterMap Finding.skipped?).map (·.mapPaths (moved s.root root)) := by
    rw [List.filterMap_map, List.map_filterMap]
    exact List.filterMap_congr fun x _ => by cases x <;> rfl
  have haborted : (fs.map (·.mapPaths (moved s.root root))).findSome? Finding.malformed? =
      (fs.findSome? Finding.malformed?).map (moved s.root root) := by
    rw [← List.head?_filterMap, ← List.head?_filterMap, List.filterMap_map, ← List.head?_map,
      List.map_filterMap]
    exact congrArg List.head? (List.filterMap_congr fun x _ => by cases x <;> rfl)
  rw [report, ScanReport.mapPaths, ScanReport.mk.injEq]
  exact ⟨rfl, (FilePath.moved_self s.root root).symm, hloaded, hskipped, rfl, haborted⟩

section

variable {l l' : Loading} {a b dir : FilePath} {c₀ c c' k : Catalog} {ss : List Stop}
  {fs : List Finding}

/-- The directory of the groups is below the root. -/
theorem below_current (a : FilePath) {name : String} (h : IsName name) :
    Below a (a / name / Layout.currentName) :=
  ((Below.refl a).join h).join Layout.isName_currentName

/-- The directory of the groups is found under the other root by the same names. -/
theorem moved_current (a b : FilePath) {name : String} (h : IsName name) :
    moved a b (a / name / Layout.currentName) = b / name / Layout.currentName := by
  rw [FilePath.moved_join ((Below.refl a).join h) Layout.isName_currentName,
    FilePath.moved_join (Below.refl a) h, FilePath.moved_self]

/-- A directory is moved with its name, so its number is the same. -/
theorem containerId?_moved (h : Layout.IsContainerDirectory a dir) :
    containerId? (moved a b dir) = containerId? dir := by
  obtain ⟨c, g, n, hc, hg, hn, rfl⟩ := h
  rw [FilePath.moved_join ((below_current a hc).join hg) hn, containerId?_join _ hn,
    containerId?_join _ hn]

/-- **A walk has a counterpart under the other root**: the stops, the findings and what the catalog gains are
those of the walk, carried over. -/
theorem Walks.moved (hl : Loading.CheckAlike l l') (hk : Catalog.GainsAlike (moved a b) c₀ c k)
    (hdir : ∀ dir, .candidate dir ∈ ss → Layout.IsContainerDirectory a dir)
    (hseen : ∀ dir id, .candidate dir ∈ ss → containerId? dir = some id → l.Moves l' a b dir id)
    (h : Walks l c ss fs c') :
    ∃ k', Walks l' k (ss.map (·.mapPaths (FilePath.moved a b)))
        (fs.map (·.mapPaths (FilePath.moved a b))) k' ∧
      Catalog.GainsAlike (FilePath.moved a b) c₀ c' k' := by
  induction h generalizing k with
  | done c => exact ⟨k, .done k, hk⟩
  | unreadable _ ih =>
      obtain ⟨k', hw, hk'⟩ := ih hk (fun dir hmem => hdir dir (List.mem_cons_of_mem _ hmem))
        fun dir id hmem => hseen dir id (List.mem_cons_of_mem _ hmem)
      exact ⟨k', .unreadable hw, hk'⟩
  | malformed c ss hid =>
      exact ⟨k, .malformed k _ ((containerId?_moved (hdir _ List.mem_cons_self)).trans hid), hk⟩
  | candidate hid ha _ ih =>
      obtain ⟨k₁, hb, hk₁⟩ := ha.moved hl (hseen _ _ List.mem_cons_self hid) hk
      obtain ⟨k', hw, hk'⟩ := ih hk₁ (fun dir hmem => hdir dir (List.mem_cons_of_mem _ hmem))
        fun dir id hmem => hseen dir id (List.mem_cons_of_mem _ hmem)
      refine ⟨k', ?_, hk'⟩
      rw [List.map_cons, List.map_cons, ← finding_mapPaths]
      exact .candidate ((containerId?_moved (hdir _ List.mem_cons_self)).trans hid) hb hw

end

/-! ## Volumes that look alike -/

/-- **The volumes with these roots look alike to a scan**: the roots list alike, and so do the `current` of
their cluster, its groups, and the files that the layout names in each directory that is named by a number. -/
structure Alike (v w : DiskView) (a b : FilePath) : Prop where
  root : v.ListsAlike w a b
  current : ∀ {c}, v.HasCluster a c →
    v.ListsAlike w (a / c / Layout.currentName) (b / c / Layout.currentName)
  group : ∀ {c g}, v.HasCluster a c → v.HasDirectory (a / c / Layout.currentName) g →
    v.ListsAlike w (a / c / Layout.currentName / g) (b / c / Layout.currentName / g)
  container : ∀ {c g n id}, v.HasCluster a c → v.HasDirectory (a / c / Layout.currentName) g →
    v.HasDirectory (a / c / Layout.currentName / g) n → ContainerId.ofName? n = some id →
    (ContainerPaths.ofDirectory (a / c / Layout.currentName / g / n) id).SeenAs
      (.ofDirectory (b / c / Layout.currentName / g / n) id) v w

section

variable {v w : DiskView} {a b : FilePath} {c : String}

/-- In a group the same lies ahead. -/
theorem stopsIn_moved {group : FilePath} (hv : v.WellNamed) (hw : w.WellNamed) (hgroup : Below a group)
    (h : v.ListsAlike w group (moved a b group)) :
    stopsIn w (moved a b group) = (stopsIn v group).map (·.mapPaths (moved a b)) := by
  rw [stopsIn, stopsIn, h.subdirectories_moved hv hw hgroup]
  cases v.subdirectories group with
  | error e => rfl
  | ok ds => simp [Except.map, Stop.mapPaths]

/-- **The same lies ahead**, carried over. -/
theorem stops_moved (hv : v.WellNamed) (hw : w.WellNamed) (h : Alike v w a b) (hc : v.HasCluster a c) :
    stops w (b / c / Layout.currentName) =
      (stops v (a / c / Layout.currentName)).map (·.map (·.mapPaths (moved a b))) := by
  have hcurrent := below_current a (hc.isName hv)
  have hmoved := moved_current a b (hc.isName hv)
  have hsub := DiskView.ListsAlike.subdirectories_moved hv hw hcurrent (hmoved ▸ h.current hc)
  rw [stops, stops, ← hmoved, hsub]
  cases hgroups : v.subdirectories (a / c / Layout.currentName) with
  | error e => rfl
  | ok groups =>
      simp only [Except.map, List.flatMap_map, List.map_flatMap]
      refine congrArg (Except.ok ∘ List.flatten) (List.map_congr_left fun group hgroup => ?_)
      obtain ⟨g, hg, rfl⟩ := DiskView.exists_hasDirectory_of_mem hgroups hgroup
      refine stopsIn_moved hv hw (hcurrent.join (hg.isName hv)) ?_
      rw [FilePath.moved_join hcurrent (hg.isName hv), hmoved]
      exact h.group hc hg

/-- **What is seen of each container ahead is seen of its counterpart.** -/
theorem Alike.moves {l l' : Loading} (h : Alike l.view l'.view a b) (hv : l.view.WellNamed)
    (hc : l.view.HasCluster a c) {ss : List Stop}
    (hstops : stops l.view (a / c / Layout.currentName) = .ok ss) {dir : FilePath}
    (hmem : .candidate dir ∈ ss) {id : ContainerId} (hid : containerId? dir = some id) :
    l.Moves l' a b dir id := by
  obtain ⟨groups, group, ds, hgroups, hgroup, hsub, hds⟩ := exists_group_of_mem_stops hstops hmem
  obtain ⟨g, hg, rfl⟩ := DiskView.exists_hasDirectory_of_mem hgroups hgroup
  obtain ⟨n, hn, rfl⟩ := DiskView.exists_hasDirectory_of_mem hsub hds
  rw [containerId?_join _ (hn.isName hv)] at hid
  have hcurrent := below_current a (hc.isName hv)
  have hbelow := hcurrent.join (hg.isName hv)
  refine ⟨hbelow.join (hn.isName hv), ?_⟩
  rw [FilePath.moved_join hbelow (hn.isName hv), FilePath.moved_join hcurrent (hg.isName hv),
    moved_current a b (hc.isName hv)]
  exact h.container hc hg hn hid

end

section

variable {s : Scan} {w : DiskView} {root : FilePath}

/-- **The cluster is found, or missed, alike.** -/
theorem cluster_moved (hv : s.view.WellNamed) (hw : w.WellNamed) (h : Alike s.view w s.root root) :
    cluster { s with view := w, root := root } =
      (s.cluster.map (moved s.root root)).mapError (·.mapPaths (moved s.root root)) := by
  have hsub := DiskView.ListsAlike.subdirectories_moved hv hw (Below.refl s.root)
    ((FilePath.moved_self s.root root).symm ▸ h.root)
  rw [FilePath.moved_self] at hsub
  simp only [cluster, hsub]
  rcases s.view.subdirectories s.root with e | (_ | ⟨d, _ | ⟨d', ds⟩⟩) <;>
    simp [Except.map, Except.mapError, VolumeFault.mapPaths, FilePath.moved_self]

end

/-! ## The theorem -/

/-- **A scan sees only what the layout names.** On two volumes that look alike to a scan, wherever they are
mounted and in whichever order their entries are listed, two scans that check for the index file, with one
number for the volume and from one catalog, come to the same: the second report and what the second catalog
gains are those of the first, with the one root in place of the other. -/
theorem run_relocates (s : Scan) (w : DiskView) (root : FilePath) (c : Catalog) (r r' : Registry)
    (hv : s.view.WellNamed) (hw : w.WellNamed) (hcheck : s.check = .indexFile)
    (halike : Alike s.view w s.root root) :
    ∃ report, (s.run c r).report = some report ∧
      (run { s with view := w, root := root } c r').report =
        some (report.mapPaths (moved s.root root)) ∧
      Catalog.GainsAlike (moved s.root root) c (s.run c r).catalog
        (run { s with view := w, root := root } c r').catalog := by
  have hcluster' := cluster_moved hv hw halike
  have hempty := report_mapPaths s w root []
  cases hcluster : s.cluster with
  | error fault =>
      rw [hcluster] at hcluster'
      rw [run_of_fault hcluster, run_of_fault hcluster']
      refine ⟨_, rfl, ?_, .refl _ c⟩
      rw [← List.map_nil, hempty]
      rfl
  | ok cluster =>
      obtain ⟨name, hname, rfl⟩ := DiskView.exists_hasCluster (cluster_eq_ok_iff.mp hcluster)
      rw [hcluster, Except.map, FilePath.moved_join (Below.refl s.root) (hname.isName hv),
        FilePath.moved_self] at hcluster'
      have hstops' := stops_moved hv hw halike hname
      cases hstops : stops s.view (s.root / name / Layout.currentName) with
      | error e =>
          rw [hstops] at hstops'
          rw [run_of_unreadable hcluster hstops, run_of_unreadable hcluster' hstops']
          exact ⟨_, rfl, congrArg some hempty, .refl _ c⟩
      | ok ss =>
          rw [hstops] at hstops'
          have hl : Loading.CheckAlike s.toLoading
              (toLoading { s with view := w, root := root }) := ⟨hcheck, hcheck, rfl⟩
          obtain ⟨fs, hwalks, hreport⟩ := exists_walks (c := c) (r := r) hv hl.neverCrashes.1 hcluster
            hstops
          obtain ⟨fs', hwalks', hreport'⟩ := exists_walks (c := c) (r := r') hw hl.neverCrashes.2
            hcluster' hstops'
          obtain ⟨k', hcounterpart, hgains⟩ := hwalks.moved hl (.refl _ c)
            (fun dir hmem =>
              isContainerDirectory_of_mem_stops hv (cluster_eq_ok_iff.mp hcluster) hstops hmem)
            (fun dir id hmem hid => Alike.moves halike hv hname hstops hmem hid)
          obtain ⟨rfl, rfl⟩ := hcounterpart.unique (fun _ => named_of_mem_stops hw hstops') hwalks'
          exact ⟨_, hreport, hreport'.trans (congrArg some (report_mapPaths s w root fs)), hgains⟩

/-! ## A volume that is mounted elsewhere -/

/-- A view in which what lies below one directory is found below another one, and directories list nothing
but their sub-directories, the last one first. -/
def remounted (v : DiskView) (a b : FilePath) : DiskView where
  list p := (v.list (moved b a p)).map fun names =>
    (names.filter fun n => v.isDirectory (moved b a p / n)).reverse
  isDirectory p := v.isDirectory (moved b a p)
  isFile p := v.isFile (moved b a p)
  read p := v.read (moved b a p)

section

variable {v : DiskView} {a b p : FilePath} {names : List String}

theorem list_remounted (h : v.list (moved b a p) = .ok names) : (remounted v a b).list p =
    .ok (names.filter fun n => v.isDirectory (moved b a p / n)).reverse := by
  simp only [remounted, h, Except.map]

theorem wellNamed_remounted (hv : v.WellNamed) (a b : FilePath) : (remounted v a b).WellNamed := by
  have hlisted : ∀ {p names}, (remounted v a b).list p = .ok names → ∃ all,
      v.list (moved b a p) = .ok all ∧
        names = (all.filter fun n => v.isDirectory (moved b a p / n)).reverse := by
    intro p names h
    cases hall : v.list (moved b a p) with
    | error e => simp [remounted, hall, Except.map] at h
    | ok all => exact ⟨all, rfl, Except.ok.inj (h.symm.trans (list_remounted hall))⟩
  constructor
  · intro p names h n hn
    obtain ⟨all, hall, rfl⟩ := hlisted h
    exact hv.isName hall n (List.mem_filter.mp (List.mem_reverse.mp hn)).1
  · intro p names h
    obtain ⟨all, hall, rfl⟩ := hlisted h
    exact List.nodup_reverse.mpr ((hv.nodup hall).filter _)

theorem listsAlike_remounted (hv : v.WellNamed) (hp : Below b p) :
    v.ListsAlike (remounted v a b) (moved b a p) p := by
  cases hlist : v.list (moved b a p) with
  | error e => exact .unlisted hlist (by simp [remounted, hlist, Except.map])
  | ok names =>
      have hlist' := list_remounted hlist
      refine .listed hlist hlist' fun n => ⟨?_, ?_⟩
      · rintro ⟨all, hall, hn, hdir⟩
        obtain rfl := Except.ok.inj (hlist.symm.trans hall)
        refine ⟨_, hlist', List.mem_reverse.mpr (List.mem_filter.mpr ⟨hn, hdir⟩), ?_⟩
        simp only [remounted, FilePath.moved_join hp (hv.isName hlist n hn), hdir]
      · rintro ⟨all, hall, hn, -⟩
        obtain rfl := Except.ok.inj (hlist'.symm.trans hall)
        obtain ⟨hn, hdir⟩ := List.mem_filter.mp (List.mem_reverse.mp hn)
        exact ⟨names, hlist, hn, hdir⟩

/-- **Where a volume is mounted, in which order its directories are listed, and what else is listed with
them, is nothing that a scan sees.** -/
theorem alike_remounted (hv : v.WellNamed) (a b : FilePath) : Alike v (remounted v a b) a b where
  root := by simpa only [FilePath.moved_self] using listsAlike_remounted (a := a) hv (Below.refl b)
  current hc := by
    have hname := hc.isName hv
    simpa only [moved_current b a hname] using listsAlike_remounted (a := a) hv (below_current b hname)
  group hc hg := by
    have hname := hc.isName hv
    have hcurrent := below_current b hname
    have halike := listsAlike_remounted (a := a) hv (hcurrent.join (hg.isName hv))
    rwa [FilePath.moved_join hcurrent (hg.isName hv), moved_current b a hname] at halike
  container {c g n id} hc hg hn _ := by
    have hcurrent := below_current b (hc.isName hv)
    have hgroup := hcurrent.join (hg.isName hv)
    have hmoved : moved b a (b / c / Layout.currentName / g / n) =
        a / c / Layout.currentName / g / n := by
      rw [FilePath.moved_join hgroup (hn.isName hv), FilePath.moved_join hcurrent (hg.isName hv),
        moved_current b a (hc.isName hv)]
    rw [← hmoved, ContainerPaths.ofDirectory_moved (hgroup.join (hn.isName hv))]
    exact ⟨rfl, rfl, rfl, rfl⟩

end

/-- The sample volume, and the same at another place. -/
theorem run_relocates_sample :
    let s : Scan := { sample with view := remounted sample.view ⟨"/v"⟩ ⟨"/m/n"⟩, root := ⟨"/m/n"⟩ }
    sample.view.WellNamed ∧ s.view.WellNamed ∧ sample.check = .indexFile ∧
    Alike sample.view s.view sample.root s.root ∧
    ∃ report, (sample.run .empty .empty).report = some report ∧
      (s.run .empty .empty).report = some (report.mapPaths (moved ⟨"/v"⟩ ⟨"/m/n"⟩)) ∧
      Catalog.GainsAlike (moved ⟨"/v"⟩ ⟨"/m/n"⟩) .empty (sample.run .empty .empty).catalog
        (s.run .empty .empty).catalog := by
  intro s
  have hv := Disk.isTree_sample.wellNamed
  have hw := wellNamed_remounted hv ⟨"/v"⟩ ⟨"/m/n"⟩
  have halike := alike_remounted hv ⟨"/v"⟩ ⟨"/m/n"⟩
  exact ⟨hv, hw, rfl, halike,
    run_relocates sample s.view ⟨"/m/n"⟩ .empty .empty .empty hv hw rfl halike⟩

end Scan

end StorageNode
