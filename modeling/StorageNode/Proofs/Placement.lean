import StorageNode.Placement
import StorageNode.Proofs.Disk.Effects
import StorageNode.Proofs.Layout

/-!
# What placing a container does to a disk

Placing a container makes directories on the way to its own, and does everything else inside of it
(`Placement.Step`). From that one kind of steps it follows by induction that everything outside is
spared (`Placement.Spares`, `Spares.of_run`), however far the task gets. `Placement.provision_does`
says what is there if it succeeds: the metadata directory, the index file, and the descriptor file
with the bytes of the descriptor.

The descriptor is written under a temporary name first. A file that has this name already is written
over and keeps its rights (`Disk.rightsFor`), and so they are in the end those of the descriptor file.
-/

namespace StorageNode

open FilePath (IsName)

/-! ## The temporary name -/

namespace Layout

/-- The name under which the descriptor of a container is written first. -/
def temporaryName (id : ContainerId) : String := ContainerId.text id ++ ".tmp"

theorem isName_temporaryName (id : ContainerId) : IsName (temporaryName id) :=
  ContainerId.isName_text_append id (by decide)

/-- Different endings make different names. -/
theorem text_append_ne (id : ContainerId) {s t : String} (h : s ≠ t) :
    ContainerId.text id ++ s ≠ ContainerId.text id ++ t := by
  intro heq
  have hlist := congrArg String.toList heq
  rw [String.toList_append, String.toList_append] at hlist
  exact h (String.toList_inj.mp (List.append_cancel_left hlist))

theorem temporaryName_ne_descriptorName (id : ContainerId) :
    temporaryName id ≠ descriptorName id := text_append_ne id (by decide)

theorem temporaryName_ne_indexName (id : ContainerId) : temporaryName id ≠ indexName id :=
  text_append_ne id (by decide)

theorem indexName_ne_descriptorName (id : ContainerId) : indexName id ≠ descriptorName id :=
  text_append_ne id (by decide)

end Layout

theorem Descriptor.temporary_join (p : FilePath) (id : ContainerId) :
    Descriptor.temporary (p / Layout.descriptorName id) = p / Layout.temporaryName id := by
  have hstem : FilePath.stem (Layout.descriptorName id).toList = (ContainerId.text id).toList := by
    rw [Layout.descriptorName, String.toList_append]
    exact FilePath.stem_append (mt String.toList_eq_nil_iff.mp (ContainerId.text_ne_empty id))
      (by decide)
  refine FilePath.withExtension_join p (Layout.isName_descriptorName id)
    (Layout.isName_temporaryName id) ?_
  rw [hstem, Layout.temporaryName, String.toList_append]
  rfl

/-! ## Saving a descriptor -/

namespace Disk

section

variable {d : Disk} {p : FilePath} {name : String} {l : Location}

/-- A directory that is there is not made. -/
theorem makePath_of_isDirectory (hd : d.IsPlain) (h : IsName name)
    (hdir : d.isDirectory (p / name) = true) : makePath (p / name) d = ⟨[], .ok ()⟩ := by
  obtain ⟨hf, k, hk⟩ := (isDirectory_join_iff hd.linkFree p h).mp hdir
  obtain ⟨l, hreach, rfl, henter⟩ := exists_of_reach_join h hk
  obtain ⟨-, hs, hshort, r, hr⟩ := enter_eq_ok_iff.mp henter
  have hresolve : d.resolve .name (p / name) = .ok (.named l name false) := by
    rw [resolve_join hd.linkFree .name p h, hf, hreach]
    simp [Except.bind, hs]
  have hnew : newDirectory (p / name) d = .error .alreadyThere := by
    simp [newDirectory, hresolve, find, Nat.not_lt.mpr hshort, hr]
  rw [makePath, FilePath.ancestors_join p h,
    makeDirectories_cons _ _ d (FilePath.text_join_ne_empty p h), hnew]
  simp [settle, hnew, hdir]

end

end Disk

namespace Descriptor

open Disk

/-- What cannot be written down is not saved. -/
theorem save_of_error {file : FilePath} {x : Descriptor} {device : Device} {e : Yaml.WriteError}
    (h : x.toBytes = .error e) : save file x device = DiskTask.fail (.unwritable e) := by
  unfold save
  generalize x.toBytes = r at h
  subst h
  rfl

/-- Bytes are saved in the directory of the file, which is made if it is missing. -/
theorem save_of_ok {file : FilePath} {x : Descriptor} {device : Device} {bytes : Bytes}
    (h : x.toBytes = .ok bytes) :
    save file x device = DiskTask.mapError (.disk file)
      (makeParent file >>= fun _ => replaceFile device (temporary file) file bytes) := by
  unfold save
  generalize x.toBytes = r at h
  subst h
  rfl

variable {d : Disk} {q : FilePath} {name : String} {l : Location}

/-- **Saving a descriptor** in a directory that is there replaces the file. -/
theorem save_does (hd : d.IsPlain) (h : IsName name) (hdir : d.isDirectory (q / name) = true)
    (hreach : d.reach (q / name) = .ok l) (id : ContainerId) (x : Descriptor) (device : Device) :
    (save (q / name / Layout.descriptorName id) x device).Does
      (ReplaceStep l (Layout.temporaryName id) (Layout.descriptorName id)) d fun _ d' =>
        ∃ bytes, x.toBytes = .ok bytes ∧
          d'.FileAt (q / name) (Layout.descriptorName id) l
            (d.rightsFor (Layout.temporaryName id :: l)) bytes ∧
          d'.entry? (Layout.temporaryName id :: l) = none := by
  cases hbytes : x.toBytes with
  | error e =>
      rw [save_of_error hbytes]
      exact .fail _
  | ok bytes =>
      have hname := Layout.isName_descriptorName id
      have hparent : makeParent (q / name / Layout.descriptorName id) = makePath (q / name) := by
        rw [makeParent, FilePath.parent?_join_join q h hname]
        simp [FilePath.text_join_ne_empty q h]
      have hmake : (makePath (q / name)).Does
          (ReplaceStep l (Layout.temporaryName id) (Layout.descriptorName id)) d
          fun _ d' => d' = d :=
        (DiskTask.Does.pure (a := ()) (Q := fun _ d' => d' = d) rfl).of_eq
          (makePath_of_isDirectory hd h hdir)
      rw [save_of_ok hbytes, hparent, temporary_join]
      refine DiskTask.Does.mapError _ (hmake.bind fun _ hafter => ?_)
      rw [hafter]
      exact (replaceFile_does device hd (Layout.isName_temporaryName id) hname
        (Layout.temporaryName_ne_descriptorName id) hreach bytes).imp fun _ hq => ⟨bytes, rfl, hq⟩

end Descriptor

/-! ## Steps of placing a container -/

namespace Layout

/-- Where the directory of a container lies below the root of its volume. -/
def home (root : Location) (cluster : String) (id : ContainerId) : Location :=
  ContainerId.text id :: groupName id :: currentName :: cluster :: root

theorem isName_of_mem_home {cluster : String} (h : IsName cluster) (id : ContainerId) :
    ∀ n ∈ home [] cluster id, IsName n := by
  simp only [home, List.forall_mem_cons]
  exact ⟨ContainerId.isName_text id, isName_groupName id, isName_currentName, h, by simp⟩

end Layout

namespace Placement

open Disk

/-- **What placing a container may do**: make directories on the way to its own, and anything sound
inside of it. -/
inductive Step (home : Location) (d : Disk) (c : DiskChange) : Prop
  | above (h : PathStep home d c)
  | inside (hs : d.Sound c) (h : ∀ l ∈ c.places, home <:+ l)

/-- What is done before the descriptor is saved. -/
inductive PrepareStep (home : Location) (index : String) (d : Disk) (c : DiskChange) : Prop
  | metadata (h : PathStep ("metadata" :: home) d c)
  | chunks (h : PathStep ("chunks" :: home) d c)
  | index (h : FileStep ("metadata" :: home) index d c)

section

variable {home l : Location} {d d' : Disk} {c : DiskChange} {index temporary name : String}

theorem Step.sound : Step home d c → d.Sound c
  | .above h => h.sound
  | .inside hs _ => hs

/-- The last directory of a way is in the one that the way leads through. -/
theorem Step.of_path {n : String} (h : PathStep (n :: home) d c) : Step home d c := by
  obtain ⟨hv, hon⟩ := h
  rcases List.suffix_cons_iff.mp hon with heq | habove
  · refine .inside (.makeDirectory hv) fun k hk => ?_
    obtain rfl : k = n :: home := (List.mem_singleton.mp hk).trans heq
    exact List.suffix_cons n home
  · exact .above ⟨hv, habove⟩

theorem Step.of_replace (hl : home <:+ l) (h : ReplaceStep l temporary name d c) : Step home d c := by
  have hbelow : ∀ n, home <:+ n :: l := fun n => hl.trans (List.suffix_cons n l)
  refine .inside h.sound fun k hk => ?_
  rcases h.eq_or_eq hk with rfl | rfl
  · exact hbelow temporary
  · exact hbelow name

theorem PrepareStep.step : PrepareStep home index d c → Step home d c
  | .metadata h => .of_path h
  | .chunks h => .of_path h
  | .index h => by
      obtain ⟨hv⟩ := h
      refine .inside (.makeFile hv) fun k hk => ?_
      rw [List.mem_singleton.mp hk]
      exact (List.suffix_cons "metadata" home).trans (List.suffix_cons index _)

/-- The temporary file is not touched before the descriptor is saved. -/
theorem PrepareStep.temporary_not_mem (hne : temporary ≠ index) (h : PrepareStep home index d c) :
    temporary :: "metadata" :: home ∉ c.places := by
  have hpath : ∀ {n}, PathStep (n :: home) d c → temporary :: "metadata" :: home ∉ c.places := by
    rintro n ⟨hv, hon⟩ hmem
    rw [← List.mem_singleton.mp hmem] at hon
    exact absurd hon.length_le (by simp)
  cases h with
  | metadata h => exact hpath h
  | chunks h => exact hpath h
  | index h =>
      obtain ⟨hv⟩ := h
      exact fun hmem => hne (List.cons.inj (List.mem_singleton.mp hmem)).1

/-! ## What is spared -/

/-- **Everything outside a directory is as before**, apart from new directories on the way to it. -/
structure Spares (home : Location) (d d' : Disk) : Prop where
  plain : d'.IsPlain
  keeps : d.Keeps d'
  outside : ∀ {l}, ¬ home <:+ l → d'.entry? l = d.entry? l ∨
    (l <:+ home ∧ d.entry? l = none ∧ d'.entry? l = some (.directory .ofDirectory))

/-- One step spares what the ones before it have spared. -/
theorem Spares.apply (h : Spares home d d') (hc : Step home d' c) : Spares home d (c.apply d') where
  plain := ⟨h.plain.tree.apply hc.sound, h.plain.linkFree.apply hc.sound⟩
  keeps := fun _ _ hl => hc.sound.entry?_of_directory (h.keeps _ _ hl)
  outside := by
    intro l hout
    cases hc with
    | inside hs hin =>
        rw [entry?_apply_of_not_mem fun hmem => hout (hin l hmem)]
        exact h.outside hout
    | above hpath =>
        obtain @⟨n, k, hv, hon⟩ := hpath
        by_cases heq : l = n :: k
        · -- the new directory: nothing was there
          subst heq
          have hnone : d.entry? (n :: k) = none := by
            rcases h.outside hout with hsame | ⟨-, hnone, -⟩
            · rw [← hsame, hv.empty]
            · exact hnone
          exact .inr ⟨hon, hnone, by simp [DiskChange.apply]⟩
        · rw [entry?_apply_of_not_mem (by simpa [DiskChange.places] using heq)]
          exact h.outside hout

/-- **Placing a container spares everything outside its directory**, however far it gets. -/
theorem Spares.of_run (hd : d.IsPlain) {cs : List DiskChange} (h : DiskChange.Run (Step home) d cs) :
    Spares home d (DiskChange.applyAll d cs) :=
  h.keeps (fun _ _ hs hc => hs.apply hc) ⟨hd, fun _ _ hl => hl, fun _ => .inl rfl⟩

end

/-! ## Placing a container -/

/-- **The files of a container are there**: the metadata directory, and in it the index and the
descriptor, which has these rights and bytes. -/
structure Holds (d : Disk) (dir : FilePath) (id : ContainerId) (rights : Rights) (bytes : Bytes) :
    Prop where
  metadata : d.isDirectory dir = true
  index : ∃ l r content, d.FileAt dir (Layout.indexName id) l r content
  descriptor : ∃ l, d.FileAt dir (Layout.descriptorName id) l rights bytes

section

variable {d : Disk} {root : FilePath} {l : Location} {cluster : String} {id : ContainerId}

/-- The metadata directory, where it can be reached. -/
theorem reach_metadata (hd : d.LinkFree) (hroot : d.reach root = .ok l) (hcluster : IsName cluster)
    (hdir : d.isDirectory (Layout.containerPaths root cluster id).metadata = true) :
    d.reach (Layout.containerPaths root cluster id).metadata =
      .ok ("metadata" :: Layout.home l cluster id) := by
  obtain ⟨-, k, hk⟩ := (isDirectory_join_iff hd _ Layout.isName_metadata).mp hdir
  have hnames : ∀ n ∈ "metadata" :: Layout.home [] cluster id, IsName n :=
    List.forall_mem_cons.mpr ⟨Layout.isName_metadata, Layout.isName_of_mem_home hcluster id⟩
  obtain rfl := reach_below hroot hnames hk
  exact hk

/-- The directories of a container are made. -/
theorem makeDirectories_does (hd : d.IsPlain) (hroot : d.reach root = .ok l)
    (hcluster : IsName cluster) :
    (makeDirectories root cluster id).Does
      (PrepareStep (Layout.home l cluster id) (Layout.indexName id)) d fun paths d' =>
        paths = Layout.containerPaths root cluster id ∧ d'.isDirectory paths.metadata = true := by
  have hsound : ∀ d c, PrepareStep (Layout.home l cluster id) (Layout.indexName id) d c →
      d.Sound c := fun _ _ h => h.step.sound
  have hnames := Layout.isName_of_mem_home hcluster id
  have hmetadata : (makePath (Layout.containerPaths root cluster id).metadata).Does
      (PrepareStep (Layout.home l cluster id) (Layout.indexName id)) d _ :=
    (makePath_does (List.forall_mem_cons.mpr ⟨Layout.isName_metadata, hnames⟩) hd hroot).mono
      fun _ _ => .metadata
  refine hmetadata.andThen hsound hd fun _ d₁ hd₁ hkeep₁ hdir₁ => ?_
  have hchunks : (makePath (Layout.containerPaths root cluster id).chunks).Does
      (PrepareStep (Layout.home l cluster id) (Layout.indexName id)) d₁ _ :=
    (makePath_does (List.forall_mem_cons.mpr ⟨Layout.isName_chunks, hnames⟩) hd₁
      (reach_mono hkeep₁ hroot)).mono fun _ _ => .chunks
  refine hchunks.andThen hsound hd₁ fun _ d₂ hd₂ hkeep₂ _ => .pure ⟨rfl, ?_⟩
  exact isDirectory_join_mono hd₁.linkFree hd₂.linkFree hkeep₂ Layout.isName_metadata hdir₁

/-- The index is made, and nothing has touched the temporary file. -/
theorem prepare_does (hd : d.IsPlain) (hroot : d.reach root = .ok l) (hcluster : IsName cluster) :
    (prepare root cluster id).Does
      (PrepareStep (Layout.home l cluster id) (Layout.indexName id)) d fun paths d' =>
        paths = Layout.containerPaths root cluster id ∧ d'.isDirectory paths.metadata = true ∧
          ∃ r content, d'.FileAt paths.metadata (Layout.indexName id)
            ("metadata" :: Layout.home l cluster id) r content := by
  have hsound : ∀ d c, PrepareStep (Layout.home l cluster id) (Layout.indexName id) d c →
      d.Sound c := fun _ _ h => h.step.sound
  refine (makeDirectories_does hd hroot hcluster).andThen hsound hd ?_
  rintro _ d₁ hd₁ hkeep₁ ⟨rfl, hdir₁⟩
  have hreach := reach_metadata hd₁.linkFree (reach_mono hkeep₁ hroot) hcluster hdir₁
  have hindex := (openFile_does hd₁ (Layout.isName_indexName id) hreach).mono
    fun _ _ => @PrepareStep.index (Layout.home l cluster id) (Layout.indexName id) _ _
  refine hindex.andThen hsound hd₁ fun _ d₂ hd₂ hkeep₂ hfile => .pure ⟨rfl, ?_, hfile⟩
  exact isDirectory_join_mono hd₁.linkFree hd₂.linkFree hkeep₂ Layout.isName_metadata hdir₁

/-- **Placing a container** puts its files where a reader looks for them. The descriptor file has the
rights of the temporary file, if there was one. -/
theorem provision_does (hd : d.IsPlain) (hroot : d.reach root = .ok l) (hcluster : IsName cluster)
    (id : ContainerId) (settings : ContainerSettings) (device : Device) :
    (provision root cluster id settings device).Does (Step (Layout.home l cluster id)) d
      fun paths d' =>
      paths = Layout.containerPaths root cluster id ∧
        ∃ bytes, (Descriptor.keyValue id settings).toBytes = .ok bytes ∧
          Holds d' paths.metadata id
            (d.rightsFor (Layout.temporaryName id :: "metadata" :: Layout.home l cluster id))
            bytes := by
  have hsound : ∀ d c, Step (Layout.home l cluster id) d c → d.Sound c := fun _ _ => Step.sound
  -- nothing has touched the temporary file when the descriptor is saved
  have hprepare := (((prepare_does hd hroot hcluster).untouched
    (Layout.temporaryName id :: "metadata" :: Layout.home l cluster id) fun _ _ =>
      PrepareStep.temporary_not_mem (Layout.temporaryName_ne_indexName id)).mono fun _ _ =>
        PrepareStep.step).mapError Error.disk
  refine hprepare.andThen hsound hd ?_
  rintro _ d₁ hd₁ hkeep₁ ⟨⟨rfl, hdir₁, r, content, hindex⟩, htemporary⟩
  have hreach := reach_metadata hd₁.linkFree (reach_mono hkeep₁ hroot) hcluster hdir₁
  have hindexName : ∀ d c, ReplaceStep ("metadata" :: Layout.home l cluster id)
      (Layout.temporaryName id) (Layout.descriptorName id) d c →
      Layout.indexName id :: "metadata" :: Layout.home l cluster id ∉ c.places := by
    intro d c hc hmem
    rcases hc.eq_or_eq hmem with heq | heq
    · exact Layout.temporaryName_ne_indexName id (List.cons.inj heq).1.symm
    · exact Layout.indexName_ne_descriptorName id (List.cons.inj heq).1
  have hsave := (((Descriptor.save_does hd₁ Layout.isName_metadata hdir₁ hreach id
    (.keyValue id settings) device).untouched _ hindexName).mono fun _ _ =>
      Step.of_replace (List.suffix_cons _ _)).mapError Error.descriptor
  refine hsave.andThen hsound hd₁ ?_
  rintro _ d₂ hd₂ hkeep₂ ⟨⟨bytes, hbytes, hfile, -⟩, hkept⟩
  rw [rightsFor, htemporary] at hfile
  exact .pure ⟨rfl, bytes, hbytes, {
    metadata := isDirectory_join_mono hd₁.linkFree hd₂.linkFree hkeep₂ Layout.isName_metadata hdir₁
    index := ⟨_, r, content, hindex.mono hkeep₂ (hkept.trans hindex.entry)⟩
    descriptor := ⟨_, hfile⟩ }⟩

end

end Placement

end StorageNode
