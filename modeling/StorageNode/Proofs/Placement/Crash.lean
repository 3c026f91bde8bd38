import StorageNode.Proofs.Descriptor.Saving
import StorageNode.Proofs.Disk.Resuming
import StorageNode.Proofs.Loading

/-!
# Placing a container survives a crash

Wherever the placing of a container is cut off before its last change, the move that puts the
descriptor in place, a reader finds no descriptor: it passes over the directory and leaves the catalog
alone. And placing the container again ends as it would have ended without the crash
(`Placement.provision_crash_safe`).

For the reader it is enough that nothing comes to be at the path of the descriptor. While the metadata
directory is made, this is what steady paths are for (`Disk.Built.at?_eq`); then the directory is
there, and what is done elsewhere does not matter (`Disk.at?_of_kept`). Running the task again finds
all that has been made, and makes the rest (`Placement.prepare_resumes`); a temporary file that has been
left is emptied and written anew (`Descriptor.save_resumes`).
-/

namespace StorageNode

open FilePath (IsName)
open DiskTask (Unmoved)

namespace DiskChange

/-- Changes without a move are of the kind that allows for none. -/
theorem Run.unmoved {R : Disk → DiskChange → Prop} {d : Disk} {cs : List DiskChange}
    (h : Run R d cs) (hmove : Unmoved cs) :
    Run (fun d c => R d c ∧ ∀ source target, c ≠ .move source target) d cs := by
  induction h with
  | nil => exact .nil _
  | cons hc _ ih =>
      refine .cons ⟨hc, fun source target heq => ?_⟩ (ih fun source target hmem => ?_)
      · exact hmove source target (heq ▸ List.mem_cons_self)
      · exact hmove source target (List.mem_cons_of_mem _ hmem)

end DiskChange

/-! ## The temporary file -/

namespace Disk

open DiskChange (CutOff applyAll)

section

variable {d d' : Disk} {p : FilePath} {temporary name : String} {l : Location}

/-- Of two entries put in one place the second one is there. -/
theorem insert_insert (d : Disk) (k : Location) (e e' : DiskEntry) :
    SortedMap.insert (SortedMap.insert d k e) k e' = SortedMap.insert d k e' := by
  refine SortedMap.ext_get? fun m => ?_
  rw [SortedMap.get?_insert, SortedMap.get?_insert, SortedMap.get?_insert]
  split <;> rfl

/-- A part of an append may be a step of replacing a file, as the append is. -/
theorem ReplaceStep.of_append {k : Location} {part rest : Bytes}
    (h : ReplaceStep l temporary name d (.append k (part ++ rest))) :
    ReplaceStep l temporary name d (.append k part) := by
  cases h
  exact .append part

/-- Before a new temporary file is moved, there is nothing else to see than that file. -/
theorem drafted_of_run (hd : d.entry? (temporary :: l) = none) {ds : List DiskChange}
    (h : DiskChange.Run (ReplaceStep l temporary name) d ds) (hmove : Unmoved ds) :
    applyAll d ds = d ∨
      ∃ content, applyAll d ds = d.insert (temporary :: l) (.file .ofFile content) := by
  refine (h.unmoved hmove).keeps
    (I := fun d' => d' = d ∨ ∃ content, d' = d.insert (temporary :: l) (.file .ofFile content))
    ?_ (.inl rfl)
  rintro d' c hd' ⟨hc, hnot⟩
  cases hc with
  | makeFile hv =>
      rcases hd' with rfl | ⟨content, rfl⟩
      · exact .inr ⟨[], rfl⟩
      · exact absurd hv.empty (by simp)
  | truncate | append =>
      rcases hd' with rfl | ⟨content, rfl⟩
      · exact .inl (by simp [DiskChange.apply, hd])
      · exact .inr ⟨_, by simp [DiskChange.apply, insert_insert]; rfl⟩
  | sync => exact hd'
  | move => exact absurd rfl (hnot _ _)

/-- A file that is opened for writing is new if nothing is seen at its path. -/
theorem writable_eq_new (hd : d.IsPlain) (h : IsName name) (hreach : d.reach p = .ok l)
    (hnone : d.at? (p / name) = none) {k : Location} {isNew : Bool}
    (hw : writable (p / name) d = .ok (k, isNew)) :
    k = name :: l ∧ isNew = true ∧ d.entry? (name :: l) = none := by
  obtain ⟨rfl, hf, hs, hshort, ⟨rfl, hv⟩ | ⟨-, r, content, he⟩⟩ := writable_eq_ok hd h hreach hw
  · exact ⟨rfl, rfl, hv.empty⟩
  · have hfile : d.FileAt p name l r content := ⟨h, hreach, hf, hs, hshort, he⟩
    simp [at?, hfile.locate hd.linkFree, he] at hnone

/-- **What is left of a new file is emptied**, and creating it ends as on the disk without it. -/
theorem createFile_endsAlike (hd : d.IsPlain) (h : IsName name) (hreach : d.reach p = .ok l)
    (hw : writable (p / name) d = .ok (name :: l, true)) {content : Bytes}
    (hplain : IsPlain (d.insert (name :: l) (.file .ofFile content)))
    (hkeep : d.Keeps (d.insert (name :: l) (.file .ofFile content))) :
    (createFile (p / name)).EndsAlike (d.insert (name :: l) (.file .ofFile content)) d := by
  obtain ⟨-, hf, hs, hshort, -⟩ := writable_eq_ok hd h hreach hw
  have hfile : FileAt (d.insert (name :: l) (.file .ofFile content)) p name l .ofFile content :=
    fileAt_of_entry h hreach hf hs hshort hkeep (by simp)
  have hcreate := createFile_of_ok hw
  have hagain := createFile_of_ok (hfile.writable hplain.linkFree rfl)
  refine ⟨?_, by rw [hcreate, hagain]⟩
  rw [DiskTask.after, DiskTask.after, hcreate, hagain]
  simp [DiskChange.applyAll, DiskChange.apply, insert_insert]

/-- **Replacing a file resumes** if the temporary one is new: what is left of it is emptied. -/
theorem replaceFile_resumes (device : Device) (hd : d.IsPlain) (ht : IsName temporary)
    (h : IsName name) (hne : temporary ≠ name) (hreach : d.reach p = .ok l)
    (hnone : d.at? (p / temporary) = none) (bytes : Bytes) :
    (replaceFile device (p / temporary) (p / name) bytes).Resumes d := by
  cases hw : writable (p / temporary) d with
  | error e =>
      have hcreate : createFile (p / temporary) d = ⟨[], .error e⟩ :=
        DiskTask.bind_of_error (t := DiskTask.ask (writable (p / temporary))) hw
      refine .of_unchanged ?_
      rw [replaceFile, DiskTask.bind_of_error (by rw [hcreate]), hcreate]
  | ok a =>
      obtain ⟨k, isNew⟩ := a
      obtain ⟨rfl, rfl, hempty⟩ := writable_eq_new hd ht hreach hnone hw
      intro ds hds hmove
      have hdoes := replaceFile_does device hd ht h hne hreach bytes
      obtain ⟨hplain, hkeep⟩ := hdoes.plain_of_cutOff (fun _ _ => ReplaceStep.sound)
        (fun _ _ _ _ => .of_append) hd hds
      rcases drafted_of_run hempty (hds.run (fun _ _ _ _ => .of_append) hdoes.run) hmove with
        heq | ⟨content, heq⟩
      · rw [heq]
        exact .refl _ _
      · rw [heq] at hplain hkeep ⊢
        exact (createFile_endsAlike hd ht hreach hw hplain hkeep).bind _

end

end Disk

namespace Descriptor

open Disk
open DiskChange (applyAll)

section

variable {d : Disk} {q : FilePath} {name : String} {l : Location} {id : ContainerId}

/-- In a directory that is there, saving a descriptor is replacing its file. -/
theorem save_eq (hd : d.IsPlain) (h : IsName name) (hdir : d.isDirectory (q / name) = true)
    (id : ContainerId) (bytes : Bytes) (device : Device) :
    (makeParent (q / name / Layout.descriptorName id) >>= fun _ =>
        replaceFile device (temporary (q / name / Layout.descriptorName id))
          (q / name / Layout.descriptorName id) bytes) d =
      replaceFile device (q / name / Layout.temporaryName id) (q / name / Layout.descriptorName id)
        bytes d := by
  have hparent : makeParent (q / name / Layout.descriptorName id) = makePath (q / name) := by
    rw [makeParent, FilePath.parent?_join_join q h (Layout.isName_descriptorName id)]
    simp [FilePath.text_join_ne_empty q h]
  rw [hparent, DiskTask.bind_of_unchanged (makePath_of_isDirectory hd h hdir), temporary_join]

/-- **Saving a descriptor resumes**, if nothing is at the temporary path. -/
theorem save_resumes (hd : d.IsPlain) (h : IsName name) (hdir : d.isDirectory (q / name) = true)
    (hreach : d.reach (q / name) = .ok l)
    (hnone : d.at? (q / name / Layout.temporaryName id) = none) (x : Descriptor)
    (device : Device) : (save (q / name / Layout.descriptorName id) x device).Resumes d := by
  cases hbytes : x.toBytes with
  | error e =>
      rw [save_of_error hbytes]
      exact .of_unchanged rfl
  | ok bytes =>
      have hreplace := replaceFile_resumes device hd (Layout.isName_temporaryName id)
        (Layout.isName_descriptorName id) (Layout.temporaryName_ne_descriptorName id) hreach hnone
        bytes
      rw [save_of_ok hbytes]
      refine .mapError _ fun ds hds hmove => ?_
      have heq := save_eq hd h hdir id bytes device
      rw [heq] at hds
      -- the directory is still there when the task is run again
      obtain ⟨hplain, hkeep⟩ := (replaceFile_does device hd (Layout.isName_temporaryName id)
        (Layout.isName_descriptorName id) (Layout.temporaryName_ne_descriptorName id) hreach
        bytes).plain_of_cutOff (fun _ _ => ReplaceStep.sound) (fun _ _ _ _ => .of_append) hd hds
      have hdir' := isDirectory_join_mono hd.linkFree hplain.linkFree hkeep h hdir
      have heq' := save_eq hplain h hdir' id bytes device
      exact (hreplace ds hds hmove).congr ⟨by rw [heq], by rw [heq]⟩ ⟨by rw [heq'], by rw [heq']⟩

end

end Descriptor

namespace Placement

open Disk
open DiskChange (CutOff applyAll)

section

variable {d : Disk} {root : FilePath} {cluster : String} {id : ContainerId} {l : Location}

/-! ## Preparing a container -/

/-- **Nothing is at the path of a descriptor**, nor at the temporary one. -/
structure Bare (d : Disk) (paths : ContainerPaths) (id : ContainerId) : Prop where
  plain : d.IsPlain
  descriptor : d.at? paths.descriptor = none
  temporary : d.at? (paths.metadata / Layout.temporaryName id) = none

/-- **What has been prepared**: the directories are there, and the index file, which may be
written. -/
structure Prepared (d : Disk) (paths : ContainerPaths) (id : ContainerId) (l : Location) : Prop where
  plain : d.IsPlain
  reach : d.reach paths.metadata = .ok ("metadata" :: l)
  metadata : d.isDirectory paths.metadata = true
  chunks : d.isDirectory paths.chunks = true
  index : ∃ r content, d.FileAt paths.metadata (Layout.indexName id) ("metadata" :: l) r content ∧
    r.write = true

/-- The metadata directory is reached by way of the container's. -/
theorem exists_reach_container (hd : d.IsPlain) {dir : FilePath}
    (h : d.isDirectory (dir / "metadata") = true) :
    ∃ l, d.reach dir = .ok l ∧ d.reach (dir / "metadata") = .ok ("metadata" :: l) ∧
      ∃ r, d.entry? ("metadata" :: l) = some (.directory r) := by
  obtain ⟨-, k, hk⟩ := (isDirectory_join_iff hd.linkFree dir Layout.isName_metadata).mp h
  obtain ⟨l, hl, rfl, henter⟩ := exists_of_reach_join Layout.isName_metadata hk
  obtain ⟨-, -, -, r, hr⟩ := enter_eq_ok_iff.mp henter
  exact ⟨l, hl, hk, r, hr⟩

/-- A part of an append is no step of preparing, as the append is not. -/
theorem PrepareStep.of_append {home k : Location} {index : String} {part rest : Bytes}
    (h : PrepareStep home index d (.append k (part ++ rest))) :
    PrepareStep home index d (.append k part) := by
  cases h with
  | metadata h => cases h
  | chunks h => cases h
  | index h => cases h

/-- **Directories stay, and so do the two entries** that a reader of the descriptor can meet. -/
structure Beside (d : Disk) (l : Location) (id : ContainerId) (d' : Disk) : Prop where
  plain : d'.IsPlain
  keeps : d.Keeps d'
  descriptor : d'.entry? (Layout.descriptorName id :: "metadata" :: l) =
    d.entry? (Layout.descriptorName id :: "metadata" :: l)
  temporary : d'.entry? (Layout.temporaryName id :: "metadata" :: l) =
    d.entry? (Layout.temporaryName id :: "metadata" :: l)

theorem Beside.refl (hd : d.IsPlain) (l : Location) (id : ContainerId) : Beside d l id d :=
  ⟨hd, fun _ _ h => h, rfl, rfl⟩

theorem Beside.apply {d' : Disk} {c : DiskChange} (h : Beside d l id d')
    (hc : PrepareStep l (Layout.indexName id) d' c) : Beside d l id (c.apply d') where
  plain := ⟨h.plain.tree.apply hc.step.sound, h.plain.linkFree.apply hc.step.sound⟩
  keeps := fun _ _ hl => hc.step.sound.keeps _ _ (h.keeps _ _ hl)
  descriptor := (entry?_apply_of_not_mem (hc.temporary_not_mem
    (Layout.indexName_ne_descriptorName id).symm)).trans h.descriptor
  temporary := (entry?_apply_of_not_mem (hc.temporary_not_mem
    (Layout.temporaryName_ne_indexName id))).trans h.temporary

/-- Where nothing was at the two paths, there is still nothing. -/
theorem Beside.bare {d' : Disk} {dir : FilePath} (h : Beside d l id d')
    (hbare : Bare d (.ofDirectory dir id) id)
    (hreach : d.reach (dir / "metadata") = .ok ("metadata" :: l))
    (hm : ∃ r, d.entry? ("metadata" :: l) = some (.directory r)) :
    Bare d' (.ofDirectory dir id) id where
  plain := h.plain
  descriptor := (at?_of_kept hbare.plain.linkFree h.plain.linkFree h.keeps
    (Layout.isName_descriptorName id) hreach hm h.descriptor).trans hbare.descriptor
  temporary := (at?_of_kept hbare.plain.linkFree h.plain.linkFree h.keeps
    (Layout.isName_temporaryName id) hreach hm h.temporary).trans hbare.temporary

/-- **The chunk directory and the index are made beside the descriptor**, and nothing comes to be at
its path. -/
theorem Bare.survives {α : Type} {t : DiskTask DiskError α} {Q : α → Disk → Prop}
    {paths : ContainerPaths} {dir : FilePath} (hpaths : paths = .ofDirectory dir id)
    (hbare : Bare d paths id) (hdir : d.isDirectory paths.metadata = true)
    (hreach : d.reach dir = .ok l) (ht : t.Does (PrepareStep l (Layout.indexName id)) d Q) :
    t.Survives (Bare · paths id) d fun a d' => Q a d' ∧ Bare d' paths id ∧ d.Keeps d' := by
  subst hpaths
  obtain ⟨l', hl', hmetadata, hm⟩ := exists_reach_container hbare.plain hdir
  obtain rfl : l' = l := Except.ok.inj (hl'.symm.trans hreach)
  have hstays := ht.survives (E := Beside d l' id) (.refl hbare.plain l' id)
    (fun _ _ _ _ => .of_append) fun _ _ => .apply
  exact hstays.imp (fun _ h => h.bare hbare hmetadata hm) fun _ _ ⟨hq, h⟩ =>
    ⟨hq, h.bare hbare hmetadata hm, h.keeps⟩

/-- The chunk directory is made beside the metadata. -/
theorem chunks_does {dir : FilePath} (hd : d.IsPlain) (hreach : d.reach dir = .ok l)
    (index : String) :
    (makePath (dir / "chunks")).Does (PrepareStep l index) d fun _ d' =>
      d'.isDirectory (dir / "chunks") = true := by
  have hnames : ∀ m ∈ ["chunks"], IsName m := by
    intro m hm
    rw [List.mem_singleton.mp hm]
    exact Layout.isName_chunks
  exact (makePath_does hnames hd hreach).mono fun _ _ => .chunks

/-- The index is made in the metadata directory. -/
theorem index_does {dir : FilePath} (hd : d.IsPlain)
    (hreach : d.reach (dir / "metadata") = .ok ("metadata" :: l)) (id : ContainerId) :
    (openFile (dir / "metadata" / Layout.indexName id)).Does
      (PrepareStep l (Layout.indexName id)) d fun _ d' => ∃ r content,
        d'.FileAt (dir / "metadata") (Layout.indexName id) ("metadata" :: l) r content ∧
          r.write = true where
  run := (openFile_does hd (Layout.isName_indexName id) hreach).run.mono fun _ _ => .index
  post := fun hok => (fileAt_openFile hd (Layout.isName_indexName id) hreach hok).2

/-! ## The directories -/

/-- **While the metadata directory is made**, nothing comes to be at the path of the descriptor. -/
theorem makePath_keeps_bare {paths : ContainerPaths} {dir : FilePath}
    (hpaths : paths = .ofDirectory dir id) (hbare : Bare d paths id)
    (hsteady : d.Steady paths.descriptor) :
    (makePath paths.metadata).Survives (Bare · paths id) d fun _ d' =>
      Bare d' paths id ∧ d'.isDirectory paths.metadata = true := by
  subst hpaths
  have htrim := FilePath.trim_join dir Layout.isName_metadata
  have hdescriptor := FilePath.behind_join_join dir Layout.isName_metadata
    (Layout.isName_descriptorName id)
  have htemporary := FilePath.behind_join_join dir Layout.isName_metadata
    (Layout.isName_temporaryName id)
  have hmake := makePath_survives hbare.plain.tree (hsteady.of_behind hdescriptor) (.inl htrim)
  have hbuilt : ∀ d', d.Built (dir / "metadata") d' → Bare d' (.ofDirectory dir id) id :=
    fun d' h => ⟨h.isPlain hbare.plain,
      (h.at?_eq hdescriptor (Layout.isName_descriptorName id)).trans hbare.descriptor,
      (h.at?_eq htemporary (Layout.isName_temporaryName id)).trans hbare.temporary⟩
  exact ⟨fun hds => hbuilt _ (hmake.cut hds), fun ha =>
    ⟨hbuilt _ (hmake.post ha), isDirectory_makePath hbare.plain htrim ha⟩⟩

/-- **The directories of a container are made**, and nothing comes to be at the path of its
descriptor. -/
theorem makeDirectories_survives (hbare : Bare d (Layout.containerPaths root cluster id) id)
    (hsteady : d.Steady (Layout.containerPaths root cluster id).descriptor) :
    (makeDirectories root cluster id).Survives
      (Bare · (Layout.containerPaths root cluster id) id) d fun paths d' =>
        paths = Layout.containerPaths root cluster id ∧ Bare d' paths id ∧
          d'.isDirectory paths.metadata = true ∧ d'.isDirectory paths.chunks = true := by
  refine (makePath_keeps_bare rfl hbare hsteady).bind fun _ ⟨hbare₁, hdir₁⟩ => ?_
  obtain ⟨l, hreach, -⟩ := exists_reach_container hbare₁.plain hdir₁
  refine (hbare₁.survives rfl hdir₁ hreach
    (chunks_does hbare₁.plain hreach (Layout.indexName id))).bind fun _ ⟨hchunks, hbare₂, hkeep⟩ => ?_
  refine .pure hbare₂ ⟨rfl, hbare₂, ?_, hchunks⟩
  exact isDirectory_join_mono hbare₁.plain.linkFree hbare₂.plain.linkFree hkeep
    Layout.isName_metadata hdir₁

/-- **A container is prepared**, and nothing comes to be at the path of its descriptor. -/
theorem prepare_survives (hbare : Bare d (Layout.containerPaths root cluster id) id)
    (hsteady : d.Steady (Layout.containerPaths root cluster id).descriptor) :
    (prepare root cluster id).Survives (Bare · (Layout.containerPaths root cluster id) id) d
      fun paths d' => paths = Layout.containerPaths root cluster id ∧ Bare d' paths id ∧
        ∃ l, Prepared d' paths id l := by
  refine (makeDirectories_survives hbare hsteady).bind ?_
  rintro _ ⟨rfl, hbare₁, hdir₁, hchunks₁⟩
  obtain ⟨l, hreach, hmetadata, -⟩ := exists_reach_container hbare₁.plain hdir₁
  refine (hbare₁.survives rfl hdir₁ hreach (index_does hbare₁.plain hmetadata id)).bind
    fun _ ⟨hindex, hbare₂, hkeep⟩ => ?_
  refine .pure hbare₂ ⟨rfl, hbare₂, l, ?_⟩
  exact {
    plain := hbare₂.plain
    reach := reach_mono hkeep hmetadata
    metadata := isDirectory_join_mono hbare₁.plain.linkFree hbare₂.plain.linkFree hkeep
      Layout.isName_metadata hdir₁
    chunks := isDirectory_join_mono hbare₁.plain.linkFree hbare₂.plain.linkFree hkeep
      Layout.isName_chunks hchunks₁
    index := hindex }

/-! ## Preparing again -/

/-- Directories that are there are not made. -/
theorem makeDirectories_of_isDirectory (hd : d.IsPlain)
    (hmetadata : d.isDirectory (Layout.containerPaths root cluster id).metadata = true)
    (hchunks : d.isDirectory (Layout.containerPaths root cluster id).chunks = true) :
    makeDirectories root cluster id d = ⟨[], .ok (Layout.containerPaths root cluster id)⟩ := by
  refine (DiskTask.bind_of_unchanged
    (makePath_of_isDirectory hd Layout.isName_metadata hmetadata)).trans ?_
  exact DiskTask.bind_of_unchanged (makePath_of_isDirectory hd Layout.isName_chunks hchunks)

/-- What has been prepared is not prepared again. -/
theorem Prepared.prepare_eq (h : Prepared d (Layout.containerPaths root cluster id) id l) :
    prepare root cluster id d = ⟨[], .ok (Layout.containerPaths root cluster id)⟩ := by
  obtain ⟨r, content, hindex, hwrite⟩ := h.index
  refine (DiskTask.bind_of_unchanged
    (makeDirectories_of_isDirectory h.plain h.metadata h.chunks)).trans ?_
  exact DiskTask.bind_of_unchanged (openFile_of_ok (hindex.writable h.plain.linkFree hwrite))

/-- **What has been prepared stays so** while the descriptor is saved. -/
theorem Prepared.of_replace {paths : ContainerPaths} {dir : FilePath}
    (hpaths : paths = .ofDirectory dir id) (h : Prepared d paths id l) {cs : List DiskChange}
    (hrun : DiskChange.Run (ReplaceStep ("metadata" :: l) (Layout.temporaryName id)
      (Layout.descriptorName id)) d cs) : Prepared (applyAll d cs) paths id l := by
  subst hpaths
  have hplain := h.plain.applyAll (fun _ _ => ReplaceStep.sound) hrun
  have hkeep := keeps_applyAll (fun _ _ => ReplaceStep.sound) hrun
  obtain ⟨r, content, hindex, hwrite⟩ := h.index
  have hkept : entry? (applyAll d cs) (Layout.indexName id :: "metadata" :: l) =
      d.entry? (Layout.indexName id :: "metadata" :: l) := by
    refine hrun.keeps (I := fun d' => d'.entry? (Layout.indexName id :: "metadata" :: l) =
      d.entry? (Layout.indexName id :: "metadata" :: l)) (fun d' c hd' hc => ?_) rfl
    refine (entry?_apply_of_not_mem fun hmem => ?_).trans hd'
    rcases hc.eq_or_eq hmem with heq | heq
    · exact Layout.temporaryName_ne_indexName id (List.cons.inj heq).1.symm
    · exact Layout.indexName_ne_descriptorName id (List.cons.inj heq).1
  exact {
    plain := hplain
    reach := reach_mono hkeep h.reach
    metadata := isDirectory_join_mono h.plain.linkFree hplain.linkFree hkeep
      Layout.isName_metadata h.metadata
    chunks := isDirectory_join_mono h.plain.linkFree hplain.linkFree hkeep
      Layout.isName_chunks h.chunks
    index := ⟨r, content, hindex.mono hkeep (hkept.trans hindex.entry), hwrite⟩ }

/-- **Making the directories of a container resumes.** -/
theorem makeDirectories_resumes (hd : d.IsPlain) : (makeDirectories root cluster id).Resumes d := by
  have htrim := fun {name : String} (hname : IsName name) =>
    FilePath.trim_join (Layout.containerPaths root cluster id).container hname
  have hmetadata := htrim Layout.isName_metadata
  have hplain := hd.after_makePath (.inl hmetadata)
  refine (makePath_resumes hd (.inl hmetadata)).bind
    (fun _ _ => (makePath_resumes hplain (.inl (htrim Layout.isName_chunks))).andPure _)
    fun _ hr ds hds _ => ?_
  -- the metadata directory is there, wherever making the other one is cut off
  have hdir := isDirectory_makePath hd hmetadata hr
  obtain ⟨l, hreach, -⟩ := exists_reach_container hplain hdir
  have hchunks := (chunks_does hplain hreach (Layout.indexName id)).andPure
    (Layout.containerPaths root cluster id)
  obtain ⟨hplain', hkeep⟩ := hchunks.plain_of_cutOff (fun _ _ h => h.step.sound)
    (fun _ _ _ _ => PrepareStep.of_append) hplain hds
  exact makePath_of_isDirectory hplain' Layout.isName_metadata
    (isDirectory_join_mono hplain.linkFree hplain'.linkFree hkeep Layout.isName_metadata hdir)

/-- **Preparing a container resumes.** -/
theorem prepare_resumes (hbare : Bare d (Layout.containerPaths root cluster id) id)
    (hsteady : d.Steady (Layout.containerPaths root cluster id).descriptor) :
    (prepare root cluster id).Resumes d := by
  have hmade : ∀ {paths}, (makeDirectories root cluster id d).result = .ok paths → _ :=
    fun hr => (makeDirectories_survives hbare hsteady).post hr
  refine (makeDirectories_resumes hbare.plain).bind (fun paths hr => ?_) fun paths hr ds hds _ => ?_
  · obtain ⟨rfl, hbare₁, hdir₁, -⟩ := hmade hr
    obtain ⟨l, -, hmetadata, -⟩ := exists_reach_container hbare₁.plain hdir₁
    exact (openFile_resumes hbare₁.plain (Layout.isName_indexName id) hmetadata).andPure _
  · obtain ⟨rfl, hbare₁, hdir₁, hchunks₁⟩ := hmade hr
    obtain ⟨l, -, hmetadata, -⟩ := exists_reach_container hbare₁.plain hdir₁
    have hindex := (index_does hbare₁.plain hmetadata id).andPure
      (Layout.containerPaths root cluster id)
    obtain ⟨hplain', hkeep⟩ := hindex.plain_of_cutOff (fun _ _ h => h.step.sound)
      (fun _ _ _ _ => PrepareStep.of_append) hbare₁.plain hds
    exact makeDirectories_of_isDirectory hplain'
      (isDirectory_join_mono hbare₁.plain.linkFree hplain'.linkFree hkeep Layout.isName_metadata
        hdir₁)
      (isDirectory_join_mono hbare₁.plain.linkFree hplain'.linkFree hkeep Layout.isName_chunks
        hchunks₁)

/-! ## Placing a container -/

/-- **Before its move a saved descriptor is nowhere to be seen.** -/
theorem Prepared.save_commits {paths : ContainerPaths} {dir : FilePath}
    (hpaths : paths = .ofDirectory dir id) (h : Prepared d paths id l) (hbare : Bare d paths id)
    (x : Descriptor) (device : Device) :
    (Descriptor.save paths.descriptor x device).Commits (fun d' => d'.at? paths.descriptor = none) d
      fun _ _ => True := by
  subst hpaths
  have hname := Layout.isName_descriptorName id
  have hnamet := Layout.isName_temporaryName id
  have hb := FilePath.behind_join_join dir Layout.isName_metadata hname
  have hbt := FilePath.behind_join_join dir Layout.isName_metadata hnamet
  rw [← Descriptor.temporary_join] at hbt
  have hunlinked : ∀ p, d.Unlinked p := fun p k _ => h.plain.linkFree k
  cases hbytes : x.toBytes with
  | error e =>
      rw [Descriptor.save_of_error hbytes]
      exact (DiskTask.Survives.of_error (e := .unwritable e) hbare.descriptor rfl).commits
  | ok bytes =>
      have hreplace := Descriptor.replaceFile_commits device (.refl h.plain.tree _) hb hname hbt hnamet
        (Layout.temporaryName_ne_descriptorName id) (hunlinked _) (hunlinked _) bytes
      rw [Descriptor.temporary_join] at hreplace
      rw [Descriptor.save_of_ok hbytes]
      refine .mapError _ (.of_eq ?_
        (Descriptor.save_eq h.plain Layout.isName_metadata h.metadata id bytes device))
      exact hreplace.imp (fun d' hd' => hd'.content.trans hbare.descriptor) fun _ _ _ => trivial

/-- **Before its last change** the placing of a container leaves nothing at the path of the
descriptor. -/
theorem provision_commits (hbare : Bare d (Layout.containerPaths root cluster id) id)
    (hsteady : d.Steady (Layout.containerPaths root cluster id).descriptor)
    (settings : ContainerSettings) (device : Device) :
    (provision root cluster id settings device).Commits
      (fun d' => d'.at? (Layout.containerPaths root cluster id).descriptor = none) d
      fun _ _ => True := by
  have hprepare := (prepare_survives hbare hsteady).mapError Error.disk
  refine .bind (hprepare.imp (fun _ h => h.descriptor) fun _ _ h => h) ?_
  rintro _ ⟨rfl, hbare₁, l, hprepared⟩
  exact (((hprepared.save_commits rfl hbare₁ _ device).mapError Error.descriptor).andPure _).imp
    (fun _ h => h) fun _ _ _ => trivial

/-- Saving a descriptor resumes where the container has been prepared. -/
theorem Prepared.save_resumes {paths : ContainerPaths} {dir : FilePath}
    (hpaths : paths = .ofDirectory dir id) (h : Prepared d paths id l) (hbare : Bare d paths id)
    (x : Descriptor) (device : Device) : (Descriptor.save paths.descriptor x device).Resumes d := by
  subst hpaths
  exact Descriptor.save_resumes h.plain Layout.isName_metadata h.metadata h.reach hbare.temporary x
    device

/-- What has been prepared is still there when saving the descriptor is cut off. -/
theorem Prepared.of_save {paths : ContainerPaths} {dir : FilePath}
    (hpaths : paths = .ofDirectory dir id) (h : Prepared d paths id l) {x : Descriptor}
    {device : Device} {ds : List DiskChange}
    (hds : CutOff (Descriptor.save paths.descriptor x device d).changes ds) :
    Prepared (applyAll d ds) paths id l := by
  subst hpaths
  have hsave := Descriptor.save_does h.plain Layout.isName_metadata h.metadata h.reach id x device
  exact h.of_replace rfl (hds.run (fun _ _ _ _ => .of_append) hsave.run)

/-- **Placing a container resumes.** -/
theorem provision_resumes (hbare : Bare d (Layout.containerPaths root cluster id) id)
    (hsteady : d.Steady (Layout.containerPaths root cluster id).descriptor)
    (settings : ContainerSettings) (device : Device) :
    (provision root cluster id settings device).Resumes d := by
  have hsurvives := (prepare_survives hbare hsteady).mapError Error.disk
  refine ((prepare_resumes hbare hsteady).mapError Error.disk).bind (fun paths hr => ?_)
    fun paths hr ds hds _ => ?_
  · obtain ⟨rfl, hbare₁, l, hprepared⟩ := hsurvives.post hr
    have hsave := hprepared.save_resumes rfl hbare₁ (.keyValue id settings) device
    exact (hsave.mapError Error.descriptor).andPure _
  · obtain ⟨rfl, hbare₁, l, hprepared⟩ := hsurvives.post hr
    have hcut := DiskTask.cutOff_of_andPure hds
    rw [DiskTask.changes_mapError] at hcut
    have hagain := (hprepared.of_save rfl hcut).prepare_eq
    exact DiskTask.mapError_of_unchanged Error.disk hagain

/-- Where nothing is at the path of its descriptor, a container directory is passed over. -/
theorem attempt_of_isFile (v : DiskView) (p : FilePath) {name : String} (hname : IsName name)
    (h : v.isFile (ContainerPaths.ofDirectory (p / name) id).descriptor = false)
    (check : StructureCheck) (volume : VolumeId) (c : Catalog) :
    let paths := ContainerPaths.ofDirectory (p / name) id
    Loading.attempt ⟨v, check, volume⟩ c id paths.container =
        (.skipped (.missingMetadata id paths.metadata), c) ∨
      Loading.attempt ⟨v, check, volume⟩ c id paths.container =
        (.skipped (.missingDescriptor id paths.descriptor), c) := by
  cases hm : v.isDirectory (p / name / "metadata") with
  | false => exact .inl (Loading.attempt_of_decided hname (.missingMetadata hm))
  | true => exact .inr (Loading.attempt_of_decided hname (.missingDescriptor hm h))

/-- **A crash while a container is placed does no harm.** Wherever the placing is cut off before its
move, a reader passes over the directory, since there is no descriptor, and leaves its catalog as it
was. And if placing the container again succeeds on what is left, it would have succeeded without the
crash, with the same paths and the same disk in the end. This holds on every device. -/
theorem provision_crash_safe (hd : d.IsPlain) (root : FilePath) (cluster : String)
    (id : ContainerId) (settings : ContainerSettings) (device : Device)
    (hsteady : d.Steady (Layout.containerPaths root cluster id).descriptor)
    (hp : d.at? (Layout.containerPaths root cluster id).descriptor = none)
    (ht : d.at? (Descriptor.temporary (Layout.containerPaths root cluster id).descriptor) = none)
    {ds : List DiskChange} (hds : CutOff (provision root cluster id settings device d).changes ds)
    (hmove : Unmoved ds) :
    (∀ check volume (c : Catalog),
      let paths := Layout.containerPaths root cluster id
      Loading.attempt ⟨(applyAll d ds).view, check, volume⟩ c id paths.container =
          (.skipped (.missingMetadata id paths.metadata), c) ∨
        Loading.attempt ⟨(applyAll d ds).view, check, volume⟩ c id paths.container =
          (.skipped (.missingDescriptor id paths.descriptor), c)) ∧
    (∀ paths, (provision root cluster id settings device (applyAll d ds)).result = .ok paths →
      (provision root cluster id settings device d).result = .ok paths ∧
        (provision root cluster id settings device).after (applyAll d ds) =
          (provision root cluster id settings device).after d) := by
  have hbare : Bare d (Layout.containerPaths root cluster id) id := by
    refine ⟨hd, hp, ?_⟩
    rw [← ht, ← Descriptor.temporary_join]
    rfl
  constructor
  · intro check volume c
    have hnone : at? (applyAll d ds) (Layout.containerPaths root cluster id).descriptor = none := by
      rcases (provision_commits hbare hsteady settings device).cut hds with h | ⟨-, ⟨s, t, hmem⟩, -⟩
      · exact h
      · exact absurd hmem (hmove s t)
    have hfile : (view (applyAll d ds)).isFile
        (Layout.containerPaths root cluster id).descriptor = false := by
      rw [view_isFile]
      exact isFile_of_at?_eq_none hnone
    exact attempt_of_isFile (view (applyAll d ds)) (Layout.currentDir root cluster /
      Layout.groupName id) (ContainerId.isName_text id) hfile check volume c
  · intro paths hok
    have hends := provision_resumes hbare hsteady settings device ds hds hmove
    exact ⟨hends.result_eq_ok hok, hends.after⟩

end

/-! ## A crash with the temporary file empty, and one behind two dots -/

/-- A disk with the directories of container 5 in a cluster. -/
def readied : Disk where
  entries := [
    ([], .directory .ofDirectory),
    (["5", "containerDir0", "current", "c"], .directory .ofDirectory),
    (["c"], .directory .ofDirectory),
    (["chunks", "5", "containerDir0", "current", "c"], .directory .ofDirectory),
    (["containerDir0", "current", "c"], .directory .ofDirectory),
    (["current", "c"], .directory .ofDirectory),
    (["metadata", "5", "containerDir0", "current", "c"], .directory .ofDirectory)]
  ascending := by decide

/-- On the sample, what is cut off once the temporary file has been made is passed over, and can be
placed again. -/
theorem provision_crash_safe_readied :
    ∃ ds, CutOff (provision ⟨"/"⟩ "c" 5 {} .sound readied).changes ds ∧ Unmoved ds ∧ ds.length = 2 ∧
      (∀ check volume (c : Catalog),
        let paths := Layout.containerPaths ⟨"/"⟩ "c" 5
        Loading.attempt ⟨(applyAll readied ds).view, check, volume⟩ c 5 paths.container =
            (.skipped (.missingMetadata 5 paths.metadata), c) ∨
          Loading.attempt ⟨(applyAll readied ds).view, check, volume⟩ c 5 paths.container =
            (.skipped (.missingDescriptor 5 paths.descriptor), c)) ∧
      (provision ⟨"/"⟩ "c" 5 {} .sound (applyAll readied ds)).result =
        .ok (Layout.containerPaths ⟨"/"⟩ "c" 5) ∧
      (provision ⟨"/"⟩ "c" 5 {} .sound).after (applyAll readied ds) =
        (provision ⟨"/"⟩ "c" 5 {} .sound).after readied := by
  have hplain : readied.IsPlain :=
    ⟨IsTree.of_keys (by decide), LinkFree.of_entries fun l target hl => by simp [readied] at hl⟩
  have hsteady : readied.Steady (Layout.containerPaths ⟨"/"⟩ "c" 5).descriptor := by
    unfold Steady
    decide +kernel
  obtain ⟨ds, hds⟩ : ∃ ds, ds = (provision ⟨"/"⟩ "c" 5 {} .sound readied).changes.take 2 := ⟨_, rfl⟩
  have hcut : CutOff (provision ⟨"/"⟩ "c" 5 {} .sound readied).changes ds := hds ▸ .take 2 _
  have hfiles : ds = [
      .makeFile ["5-dn-container.db", "metadata", "5", "containerDir0", "current", "c"],
      .makeFile ["5.tmp", "metadata", "5", "containerDir0", "current", "c"]] := by
    rw [hds]
    decide +kernel
  have hmove : Unmoved ds := fun source target hmem => by simp [hfiles] at hmem
  have hok : (provision ⟨"/"⟩ "c" 5 {} .sound (applyAll readied ds)).result =
      .ok (Layout.containerPaths ⟨"/"⟩ "c" 5) := by
    rw [hfiles]
    decide +kernel
  obtain ⟨hskipped, hends⟩ := provision_crash_safe hplain ⟨"/"⟩ "c" 5 {} .sound hsteady
    (by decide +kernel) (by decide +kernel) hcut hmove
  exact ⟨ds, hcut, hmove, by rw [hfiles]; rfl, hskipped, hok, (hends _ hok).2⟩

/-- A disk with a descriptor of container 5 that is not one. -/
def veiled : Disk where
  entries := [
    ([], .directory .ofDirectory),
    (["5", "containerDir0", "current", "v"], .directory .ofDirectory),
    (["5.container", "metadata", "5", "containerDir0", "current", "v"], .file .ofFile []),
    (["containerDir0", "current", "v"], .directory .ofDirectory),
    (["current", "v"], .directory .ofDirectory),
    (["metadata", "5", "containerDir0", "current", "v"], .directory .ofDirectory),
    (["v"], .directory .ofDirectory)]
  ascending := by decide

/-- **A crash may do harm on a path that is not steady**: if the root of the volume is behind a
directory that is missing, the first change brings a descriptor to light that was there all along, and
a reader finds it corrupt. -/
theorem provision_crash_needs_steady :
    veiled.IsPlain ∧ veiled.at? (Layout.containerPaths ⟨"/v/x/../.."⟩ "v" 5).descriptor = none ∧
      veiled.at? (Descriptor.temporary (Layout.containerPaths ⟨"/v/x/../.."⟩ "v" 5).descriptor) = none ∧
      ∃ ds, CutOff (provision ⟨"/v/x/../.."⟩ "v" 5 {} .sound veiled).changes ds ∧
        ds ≠ (provision ⟨"/v/x/../.."⟩ "v" 5 {} .sound veiled).changes ∧ Unmoved ds ∧
        ∃ e c, Loading.attempt ⟨(applyAll veiled ds).view, .indexFile, 0⟩ .empty 5
          (Layout.containerPaths ⟨"/v/x/../.."⟩ "v" 5).container = (.skipped (.descriptor 5 e), c) := by
  refine ⟨⟨IsTree.of_keys (by decide), LinkFree.of_entries fun l target hl => by
    simp [veiled] at hl⟩, by decide +kernel, by decide +kernel, ?_⟩
  have hfirst : (provision ⟨"/v/x/../.."⟩ "v" 5 {} .sound veiled).changes.take 2 =
      [.makeDirectory ["x", "v"],
        .makeDirectory ["chunks", "5", "containerDir0", "current", "v"]] := by decide +kernel
  refine ⟨[.makeDirectory ["x", "v"]], ?_, ?_, ?_, ?_⟩
  · have hcut := CutOff.take (min 1 2) (provision ⟨"/v/x/../.."⟩ "v" 5 {} .sound veiled).changes
    rwa [← List.take_take, hfirst] at hcut
  · intro heq
    rw [← heq] at hfirst
    simp at hfirst
  · exact fun source target hmem => by simp at hmem
  · exact ⟨.malformed (Layout.containerPaths ⟨"/v/x/../.."⟩ "v" 5).descriptor
      (.data [] (.missing "container_id")), .empty, by decide +kernel⟩

end Placement

end StorageNode
