import StorageNode.Proofs.Placement.Crash

/-!
# Placing a container destroys nothing

On a disk without links, whatever comes of placing a container, and wherever it is cut off, the files
that were there are as they were, but for the container's own descriptor and its temporary file, and so
are the directories. What is new are directories on the way to the container's own, that one and the
two in it, an empty index, the descriptor, and perhaps its temporary file
(`Placement.provision_framed`). An index that is there is opened, and not emptied.

Until the descriptor is saved, the disk only grows (`Placement.Grown`): a step makes something where
nothing was (`Grown.make`). A new directory is where a path on the way leads (`Grown.way`), which may be
elsewhere than where it led before: two dots can stand behind a directory that was missing. Saving the
descriptor is about two places then, up to the move (`Framed.of_drafted`) and behind it
(`Framed.of_replaced`).
-/

namespace StorageNode

open FilePath (IsName)

namespace DiskTask

section

variable {ε α : Type} {E E' : Disk → Prop} {t : DiskTask ε α} {d : Disk} {Q : α → Disk → Prop}

/-- What a task leaves in the end is something that it can be cut off at. -/
theorem Survives.uncut (h : t.Survives E d Q) : t.Survives E d fun a d' => E d' ∧ Q a d' where
  cut := h.cut
  post := fun ha => ⟨h.cut (.self _), h.post ha⟩

/-- A task that commits can be cut off anywhere, if what it leaves in the end is as good as what it
leaves before. -/
theorem Commits.survives (h : t.Commits E d Q) (hE : ∀ d', E d' → E' d')
    (hQ : ∀ a d', Q a d' → E' d') : t.Survives E' d Q where
  cut := fun hds => by
    rcases h.cut hds with hcut | ⟨rfl, -, a, ha⟩
    · exact hE _ hcut
    · exact hQ a _ (h.post ha)
  post := h.post

end

end DiskTask

namespace Disk

/-! ## Places on a disk that keeps its directories -/

section

variable {d d' : Disk} {p : FilePath} {name temporary : String} {l k : Location}

theorem names_ne_nil_iff : d.names l ≠ [] ↔ ∃ n e, d.entry? (n :: l) = some e := by
  constructor
  · intro h
    obtain ⟨n, hn⟩ := List.exists_mem_of_ne_nil _ h
    exact ⟨n, mem_names_iff.mp hn⟩
  · rintro ⟨n, he⟩
    exact List.ne_nil_of_mem (mem_names_iff.mpr he)

/-- A path that leads to a directory goes on to do so. -/
theorem locate_mono (hd : d.LinkFree) (hd' : d'.LinkFree) (hkeep : d.Keeps d') {r : Rights}
    (h : d.locate p = .ok l) (hr : d.entry? l = some (.directory r)) : d'.locate p = .ok l :=
  locate_of_reach hd' (fault?_of_locate h) (reach_mono hkeep (reach_of_locate hd h hr))

/-- A path names what bears its last name in the directory that the rest of it leads to. -/
theorem nameAt?_join_eq_some_iff (hd : d.IsPlain) (h : IsName name) :
    d.nameAt? (p / name) = some k ↔ ∃ l, k = name :: l ∧ d.reach p = .ok l ∧
      fault? (p / name) = none ∧ (d.rightsOn l).search = true := by
  constructor
  · intro hk
    rcases resolve_join_cases hd .name p h with ⟨e, he, -⟩ | ⟨l, hl, hreach, hf, hs⟩
    · simp [nameAt?, he] at hk
    · obtain rfl : name :: l = k := by simpa [nameAt?, hl] using hk
      exact ⟨l, rfl, hreach, hf, hs⟩
  · rintro ⟨l, rfl, hreach, hf, hs⟩
    rw [nameAt?, resolve_join hd.linkFree .name p h, hf, hreach]
    simp [Except.bind, hs]

/-- A name goes on to be borne in the same directory. -/
theorem nameAt?_join_mono (hd : d.IsPlain) (hd' : d'.IsPlain) (hkeep : d.Keeps d') (h : IsName name)
    (hk : d.nameAt? (p / name) = some k) : d'.nameAt? (p / name) = some k := by
  obtain ⟨l, rfl, hreach, hf, hs⟩ := (nameAt?_join_eq_some_iff hd h).mp hk
  obtain ⟨r, hr, hsearch⟩ := exists_of_search hs
  refine (nameAt?_join_eq_some_iff hd' h).mpr ⟨l, rfl, reach_mono hkeep hreach, hf, ?_⟩
  rw [rightsOn_eq (hkeep _ _ hr), hsearch]

theorem Drafted.isPlain (hd : d.IsPlain) (h : d.Drafted k d') : d'.IsPlain :=
  ⟨h.tree, fun m _ => h.not_link (hd.linkFree m _)⟩

/-- Where a file has been replaced, there are no more links than before. -/
theorem Replaced.isPlain {q : FilePath} {bytes : Bytes} (hd : d.IsPlain)
    (h : d.Replaced p q name temporary l bytes d') : d'.IsPlain where
  tree := h.tree
  linkFree := by
    intro m target hm
    obtain ⟨r, hr⟩ := h.content
    by_cases hmt : m = temporary :: l
    · simp [hmt, h.moved] at hm
    by_cases hmn : m = name :: l
    · simp [hmn, hr] at hm
    rw [h.off hmt hmn] at hm
    exact hd.linkFree m target hm

/-- **Replacing a file on a disk without links** drafts it under the temporary name in the same
directory, unless nothing is done at all. -/
theorem replaceFile_commits_beside (device : Device) (hd : d.IsPlain) (ht : IsName temporary)
    (h : IsName name) (hne : temporary ≠ name) (p : FilePath) (bytes : Bytes) :
    (replaceFile device (p / temporary) (p / name) bytes).Commits
      (fun d' => d' = d ∨ ∃ l, d.nameAt? (p / temporary) = some (temporary :: l) ∧
        d.Drafted (temporary :: l) d') d
      fun _ d' => ∃ l, d.nameAt? (p / temporary) = some (temporary :: l) ∧
        d.nameAt? (p / name) = some (name :: l) ∧
        d.Replaced (p / name) p.trimmed name temporary l bytes d' := by
  have hbt := FilePath.behind_join p ht
  have hb := FilePath.behind_join p h
  rcases replaceFile_cases device hbt ht d (p / name) bytes with ⟨e, herror⟩ | ⟨l, hft, hq, hs⟩
  · exact (DiskTask.Survives.of_error (e := e) (.inl rfl) herror).commits
  · have hslot : d.Slot (p / temporary) p.trimmed temporary l :=
      ⟨hbt, ht, hft, hq, hs, fun _ => hd.linkFree _ _⟩
    have hslot' : fault? (p / name) = none → d.Slot (p / name) p.trimmed name l := fun hf =>
      ⟨hb, h, hf, hq, hs, fun _ => hd.linkFree _ _⟩
    refine (hslot.replaceFile_commits device hd.tree hslot' hne bytes).imp
      (fun d' hd' => .inr ⟨l, hslot.nameAt?_eq, hd'⟩) fun _ d' hd' => ?_
    exact ⟨l, hslot.nameAt?_eq, (hslot' hd'.slot.usable).nameAt?_eq, hd'⟩

end

end Disk

namespace Placement

open Disk
open DiskChange (CutOff applyAll)

/-- **What may be new where a container is placed**: directories on the way to its own, that one and
the two in it, the index, which is empty, the descriptor, which is complete, and its temporary
file. -/
inductive New (d : Disk) (paths : ContainerPaths) (x : Descriptor) : Location → DiskEntry → Prop
  | directory {q : FilePath} {l : Location}
      (hq : q ∈ paths.container.ancestors ∨ q = paths.metadata ∨ q = paths.chunks)
      (h : d.locate q = .ok l) : New d paths x l (.directory .ofDirectory)
  | index {l : Location} (h : d.nameAt? paths.index = some l) : New d paths x l (.file .ofFile [])
  | descriptor {l : Location} {r : Rights} {bytes : Bytes} (h : d.nameAt? paths.descriptor = some l)
      (hbytes : x.toBytes = .ok bytes) : New d paths x l (.file r bytes)
  | temporary {l : Location} {r : Rights} {content : Bytes}
      (h : d.nameAt? (Descriptor.temporary paths.descriptor) = some l) :
      New d paths x l (.file r content)

/-- **What placing a container leaves of a disk**, at any time: every file as it was, but for the
descriptor, which may have been replaced by the new one, and its temporary file; every directory in
place, and none that has been emptied; and nothing new but what belongs to the container. -/
structure Framed (d : Disk) (paths : ContainerPaths) (x : Descriptor) (d' : Disk) : Prop where
  /-- A file has its content, unless it is the descriptor, which has all of the new one then, or the
  temporary file. -/
  file : ∀ {l r content}, d.entry? l = some (.file r content) →
    d'.entry? l = some (.file r content) ∨
    (d'.nameAt? paths.descriptor = some l ∧
      ∃ r' bytes, x.toBytes = .ok bytes ∧ d'.entry? l = some (.file r' bytes)) ∨
    d'.nameAt? (Descriptor.temporary paths.descriptor) = some l
  directory : ∀ {l r}, d.entry? l = some (.directory r) → d'.entry? l = some (.directory r)
  /-- Where there were names there are some still. -/
  inhabited : ∀ {l}, d.names l ≠ [] → d'.names l ≠ []
  new : ∀ {l e}, d.entry? l = none → d'.entry? l = some e → New d' paths x l e

/-- **The disk has only grown**: all that was there is as it was. -/
structure Grown (d : Disk) (paths : ContainerPaths) (x : Descriptor) (d' : Disk) : Prop where
  plain : d'.IsPlain
  old : ∀ {l e}, d.entry? l = some e → d'.entry? l = some e
  new : ∀ {l e}, d.entry? l = none → d'.entry? l = some e → New d' paths x l e

section

variable {d d₁ d' : Disk} {dir q : FilePath} {id : ContainerId} {x : Descriptor} {c : DiskChange}
  {l k : Location} {e : DiskEntry}

/-- What is new stays so while directories stay. -/
theorem New.mono (hd : d.IsPlain) (hd' : d'.IsPlain) (hkeep : d.Keeps d') (he : d.entry? l = some e)
    (h : New d (.ofDirectory dir id) x l e) : New d' (.ofDirectory dir id) x l e := by
  cases h with
  | directory hq h => exact .directory hq (locate_mono hd.linkFree hd'.linkFree hkeep h he)
  | index h => exact .index (nameAt?_join_mono hd hd' hkeep (Layout.isName_indexName id) h)
  | descriptor h hbytes =>
      exact .descriptor (nameAt?_join_mono hd hd' hkeep (Layout.isName_descriptorName id) h) hbytes
  | temporary h =>
      refine .temporary ?_
      rw [ContainerPaths.ofDirectory, Descriptor.temporary_join] at h ⊢
      exact nameAt?_join_mono hd hd' hkeep (Layout.isName_temporaryName id) h

/-! ## The disk grows -/

namespace Grown

theorem refl (hd : d.IsPlain) (paths : ContainerPaths) (x : Descriptor) : Grown d paths x d where
  plain := hd
  old := fun he => he
  new := fun hnone he => by simp [hnone] at he

/-- What is as it was behind the growing is old, or belongs to the container. -/
theorem new_of_eq (h : Grown d (.ofDirectory dir id) x d₁) (hd' : d'.IsPlain) (hkeep : d₁.Keeps d')
    (hnone : d.entry? l = none) (heq : d'.entry? l = d₁.entry? l) (he : d'.entry? l = some e) :
    New d' (.ofDirectory dir id) x l e :=
  have he₁ := heq.symm.trans he
  (h.new hnone he₁).mono h.plain hd' hkeep he₁

/-- **Making something where nothing is** lets the disk grow, if it belongs to the container. -/
theorem make (h : Grown d (.ofDirectory dir id) x d₁) (hc : d₁.Sound c) (hplaces : c.places = [k])
    (hempty : d₁.entry? k = none)
    (hnew : ∀ e, entry? (c.apply d₁) k = some e → New (c.apply d₁) (.ofDirectory dir id) x k e) :
    Grown d (.ofDirectory dir id) x (c.apply d₁) := by
  have hplain : IsPlain (c.apply d₁) := ⟨h.plain.tree.apply hc, h.plain.linkFree.apply hc⟩
  have hoff : ∀ {l}, l ≠ k → entry? (c.apply d₁) l = d₁.entry? l := fun hl =>
    entry?_apply_of_not_mem (by simpa [hplaces] using hl)
  refine ⟨hplain, fun {l e} he => ?_, fun {l e} hnone he => ?_⟩
  · have he₁ := h.old he
    refine (hoff ?_).trans he₁
    rintro rfl
    simp [hempty] at he₁
  · by_cases hl : l = k
    · subst hl
      exact hnew e he
    · exact h.new_of_eq hplain hc.keeps hnone (hoff hl) he

/-- **A directory made on the way** to one of the container's belongs to it. -/
theorem way (hq : ∀ a ∈ q.ancestors, a ∈ dir.ancestors ∨ a = dir / "metadata" ∨ a = dir / "chunks")
    (h : Grown d (.ofDirectory dir id) x d₁) (hc : WayStep q d₁ c) :
    Grown d (.ofDirectory dir id) x (c.apply d₁) := by
  have hsound := hc.sound
  obtain ⟨-, hway, hb, hnew⟩ := hc
  refine h.make hsound rfl hnew.empty fun e he => ?_
  obtain rfl : DiskEntry.directory .ofDirectory = e := by simpa [DiskChange.apply] using he
  obtain ⟨n, hn⟩ := hnew.arrives_behind h.plain.tree hb
  exact .directory (hq _ hway.mem)
    (locate_of_passage (h.plain.tree.apply hsound) hnew.usable hn).1

/-- What is done in sound steps, each of which lets the disk grow, lets it grow wherever it is cut
off. -/
theorem survives {α : Type} {t : DiskTask DiskError α} {R : Disk → DiskChange → Prop}
    {Q : α → Disk → Prop} (h : Grown d (.ofDirectory dir id) x d₁) (ht : t.Does R d₁ Q)
    (hR : ∀ d c, R d c → d.Sound c)
    (hpart : ∀ d l part rest, R d (.append l (part ++ rest)) → R d (.append l part))
    (hstep : ∀ d' c, Grown d (.ofDirectory dir id) x d' → d₁.Keeps d' → R d' c →
      Grown d (.ofDirectory dir id) x (c.apply d')) :
    t.Survives (Grown d (.ofDirectory dir id) x) d₁ fun a d' =>
      Q a d' ∧ Grown d (.ofDirectory dir id) x d' ∧ d₁.Keeps d' :=
  (ht.survives (E := fun d' => Grown d (.ofDirectory dir id) x d' ∧ d₁.Keeps d')
    ⟨h, fun _ _ hr => hr⟩ hpart fun d' c ⟨hgrown, hkeep⟩ hc =>
      ⟨hstep d' c hgrown hkeep hc, fun _ _ hr => (hR d' c hc).keeps _ _ (hkeep _ _ hr)⟩).imp
    (fun _ h => h.1) fun _ _ h => h

/-- Making one of the container's directories lets the disk grow. -/
theorem makePath_survives (h : Grown d (.ofDirectory dir id) x d₁) (hq : q.Trim)
    (hways : ∀ a ∈ q.ancestors, a ∈ dir.ancestors ∨ a = dir / "metadata" ∨ a = dir / "chunks") :
    (makePath q).Survives (Grown d (.ofDirectory dir id) x) d₁ fun _ d' =>
      d'.isDirectory q = true ∧ Grown d (.ofDirectory dir id) x d' ∧ d₁.Keeps d' := by
  have hdoes : (makePath q).Does (WayStep q) d₁ fun _ d' => d'.isDirectory q = true := by
    refine ⟨?_, fun ha => isDirectory_makePath h.plain hq ha⟩
    cases hf : fault? q with
    | none => exact (makeDirectories_does_way hf .last (.inl hq) d₁).run
    | some e =>
        rw [makePath_of_fault hf]
        exact .nil d₁
  exact h.survives hdoes (fun _ _ => WayStep.sound) (fun _ _ _ _ hc => by cases hc)
    fun _ _ hgrown _ hc => hgrown.way hways hc

/-- Opening the index makes it at most, and empty. -/
theorem openFile_survives (h : Grown d (.ofDirectory dir id) x d₁)
    (hreach : d₁.reach (dir / "metadata") = .ok l) :
    (openFile (dir / "metadata" / Layout.indexName id)).Survives
      (Grown d (.ofDirectory dir id) x) d₁ fun _ d' =>
        Grown d (.ofDirectory dir id) x d' ∧ d₁.Keeps d' := by
  have hname := Layout.isName_indexName id
  cases hw : writable (dir / "metadata" / Layout.indexName id) d₁ with
  | error e => exact .of_error h (openFile_of_error hw)
  | ok a =>
  obtain ⟨-, hf, hs, -⟩ := writable_eq_ok h.plain hname hreach hw
  have hindex : d₁.nameAt? (dir / "metadata" / Layout.indexName id) =
      some (Layout.indexName id :: l) :=
    (nameAt?_join_eq_some_iff h.plain hname).mpr ⟨l, rfl, hreach, hf, hs⟩
  refine (h.survives (openFile_does h.plain hname hreach) (fun _ _ => FileStep.sound)
    (fun _ _ _ _ hc => by cases hc) fun d' c hgrown hkeep hc => ?_).imp (fun _ h => h) fun _ _ h => h.2
  have hsound := hc.sound
  obtain ⟨hv⟩ := hc
  refine hgrown.make hsound rfl hv.empty fun e he => ?_
  obtain rfl : DiskEntry.file .ofFile [] = e := by simpa [DiskChange.apply] using he
  have hplain : IsPlain (DiskChange.apply d' (.makeFile (Layout.indexName id :: l))) :=
    ⟨hgrown.plain.tree.apply hsound, hgrown.plain.linkFree.apply hsound⟩
  exact .index (nameAt?_join_mono h.plain hplain
    (fun _ _ hr => hsound.keeps _ _ (hkeep _ _ hr)) hname hindex)

end Grown

/-- **While a container is prepared the disk only grows.** -/
theorem prepare_grows (hd : d.IsPlain) (root : FilePath) (cluster : String) (id : ContainerId)
    (x : Descriptor) :
    (prepare root cluster id).Survives (Grown d (Layout.containerPaths root cluster id) x) d
      fun paths d' => paths = Layout.containerPaths root cluster id ∧ Grown d paths x d' ∧
        d'.isDirectory paths.metadata = true := by
  have htrim := fun {name : String} (hname : IsName name) =>
    FilePath.trim_join (Layout.containerPaths root cluster id).container hname
  have hancestors : ∀ {name : String}, IsName name → ∀ a,
      a ∈ ((Layout.containerPaths root cluster id).container / name).ancestors →
      a ∈ (Layout.containerPaths root cluster id).container.ancestors ∨
        a = (Layout.containerPaths root cluster id).container / name := by
    intro name hname a ha
    have hb := FilePath.behind_join_join (Layout.currentDir root cluster / Layout.groupName id)
      (ContainerId.isName_text id) hname
    exact (List.mem_cons.mp (hb.ancestors ▸ ha)).symm
  have hmade : (makeDirectories root cluster id).Survives
      (Grown d (Layout.containerPaths root cluster id) x) d fun paths d' =>
        paths = Layout.containerPaths root cluster id ∧ Grown d paths x d' ∧
          d'.isDirectory paths.metadata = true := by
    refine ((Grown.refl hd _ x).makePath_survives (htrim Layout.isName_metadata) fun a ha =>
      (hancestors Layout.isName_metadata a ha).imp_right .inl).bind
        fun _ ⟨hdir, hgrown, _⟩ => ?_
    refine (hgrown.makePath_survives (htrim Layout.isName_chunks) fun a ha =>
      (hancestors Layout.isName_chunks a ha).imp_right .inr).bind
        fun _ ⟨_, hgrown', hkeep⟩ => ?_
    exact .pure hgrown' ⟨rfl, hgrown', isDirectory_join_mono hgrown.plain.linkFree
      hgrown'.plain.linkFree hkeep Layout.isName_metadata hdir⟩
  refine hmade.bind ?_
  rintro _ ⟨rfl, hgrown, hdir⟩
  obtain ⟨l, -, hreach, -⟩ := exists_reach_container hgrown.plain hdir
  refine (hgrown.openFile_survives hreach).bind fun _ ⟨hgrown', hkeep⟩ => ?_
  exact .pure hgrown' ⟨rfl, hgrown', isDirectory_join_mono hgrown.plain.linkFree
    hgrown'.plain.linkFree hkeep Layout.isName_metadata hdir⟩

/-! ## The descriptor is saved -/

namespace Framed

theorem of_grown {paths : ContainerPaths} (h : Grown d paths x d') : Framed d paths x d' where
  file := fun he => .inl (h.old he)
  directory := fun he => h.old he
  inhabited := fun hl => by
    obtain ⟨n, e, he⟩ := names_ne_nil_iff.mp hl
    exact names_ne_nil_iff.mpr ⟨n, e, h.old he⟩
  new := h.new

/-- **While the descriptor is drafted** its temporary file is all that is touched. -/
theorem of_drafted (h : Grown d (.ofDirectory dir id) x d₁)
    (htemporary : d₁.nameAt? (dir / "metadata" / Layout.temporaryName id) = some k)
    (hd' : d₁.Drafted k d') : Framed d (.ofDirectory dir id) x d' := by
  have hplain := hd'.isPlain h.plain
  have hkeep : d₁.Keeps d' := fun _ _ hr => hd'.alike.directory hr
  have hname : d'.nameAt? (Descriptor.temporary (dir / "metadata" / Layout.descriptorName id)) =
      some k := by
    rw [Descriptor.temporary_join]
    exact nameAt?_join_mono h.plain hplain hkeep (Layout.isName_temporaryName id) htemporary
  refine ⟨fun {l r content} he => ?_, fun he => hkeep _ _ (h.old he), fun {l} hl => ?_,
    fun {l e} hnone he => ?_⟩
  · by_cases hk : l = k
    · exact .inr (.inr (hk ▸ hname))
    · exact .inl ((hd'.off hk).trans (h.old he))
  · obtain ⟨n, e, he⟩ := names_ne_nil_iff.mp hl
    refine names_ne_nil_iff.mpr ⟨n, ?_⟩
    by_cases hk : n :: l = k
    · rcases hd'.on with heq | ⟨-, r, content, hfile⟩
      · exact ⟨e, hk ▸ heq.trans (hk ▸ h.old he)⟩
      · exact ⟨_, hk ▸ hfile⟩
    · exact ⟨e, (hd'.off hk).trans (h.old he)⟩
  · by_cases hk : l = k
    · subst hk
      rcases hd'.on with heq | ⟨-, r, content, hfile⟩
      · exact h.new_of_eq hplain hkeep hnone heq he
      · obtain rfl := Option.some.inj (hfile.symm.trans he)
        exact .temporary hname
    · exact h.new_of_eq hplain hkeep hnone (hd'.off hk) he

/-- **Once the descriptor is in its place** the temporary file is gone, and nothing else has
changed. -/
theorem of_replaced {p : FilePath} {bytes : Bytes} (h : Grown d (.ofDirectory dir id) x d₁)
    (hbytes : x.toBytes = .ok bytes)
    (htemporary : d₁.nameAt? (dir / "metadata" / Layout.temporaryName id) =
      some (Layout.temporaryName id :: k))
    (hdescriptor : d₁.nameAt? (dir / "metadata" / Layout.descriptorName id) =
      some (Layout.descriptorName id :: k))
    (hd' : d₁.Replaced (dir / "metadata" / Layout.descriptorName id) p (Layout.descriptorName id)
      (Layout.temporaryName id) k bytes d') : Framed d (.ofDirectory dir id) x d' := by
  have hplain := hd'.isPlain h.plain
  have hkeep : d₁.Keeps d' := fun _ _ hr => hd'.alike.directory hr
  have hname : d'.nameAt? (Descriptor.temporary (dir / "metadata" / Layout.descriptorName id)) =
      some (Layout.temporaryName id :: k) := by
    rw [Descriptor.temporary_join]
    exact nameAt?_join_mono h.plain hplain hkeep (Layout.isName_temporaryName id) htemporary
  have hname' := nameAt?_join_mono h.plain hplain hkeep (Layout.isName_descriptorName id) hdescriptor
  obtain ⟨r', hcontent⟩ := hd'.content
  refine ⟨fun {l r content} he => ?_, fun he => hkeep _ _ (h.old he), fun {l} hl => ?_,
    fun {l e} hnone he => ?_⟩
  · by_cases ht : l = Layout.temporaryName id :: k
    · exact .inr (.inr (ht ▸ hname))
    by_cases hk : l = Layout.descriptorName id :: k
    · exact .inr (.inl ⟨hk ▸ hname', r', bytes, hbytes, hk ▸ hcontent⟩)
    · exact .inl ((hd'.off ht hk).trans (h.old he))
  · obtain ⟨n, e, he⟩ := names_ne_nil_iff.mp hl
    refine names_ne_nil_iff.mpr ?_
    by_cases ht : n :: l = Layout.temporaryName id :: k
    · -- the descriptor has come to where the temporary file was
      obtain ⟨-, rfl⟩ := List.cons.inj ht
      exact ⟨_, _, hcontent⟩
    by_cases hk : n :: l = Layout.descriptorName id :: k
    · exact ⟨n, _, hk ▸ hcontent⟩
    · exact ⟨n, e, (hd'.off ht hk).trans (h.old he)⟩
  · by_cases ht : l = Layout.temporaryName id :: k
    · simp [ht, hd'.moved] at he
    by_cases hk : l = Layout.descriptorName id :: k
    · subst hk
      obtain rfl := Option.some.inj (hcontent.symm.trans he)
      exact .descriptor hname' hbytes
    · exact h.new_of_eq hplain hkeep hnone (hd'.off ht hk) he

end Framed

/-- **Saving the descriptor** of a container whose directories are there does no harm, wherever it is
cut off, and takes the temporary file away in the end. -/
theorem Grown.save_survives (h : Grown d (.ofDirectory dir id) x d₁)
    (hdir : d₁.isDirectory (dir / "metadata") = true) (device : Device) :
    (Descriptor.save (dir / "metadata" / Layout.descriptorName id) x device).Survives
      (Framed d (.ofDirectory dir id) x) d₁ fun _ d' =>
        d'.at? (dir / "metadata" / Layout.temporaryName id) = none := by
  cases hbytes : x.toBytes with
  | error e =>
      rw [Descriptor.save_of_error hbytes]
      exact .of_error (e := .unwritable e) (.of_grown h) rfl
  | ok bytes =>
      have hreplace := replaceFile_commits_beside device h.plain (Layout.isName_temporaryName id)
        (Layout.isName_descriptorName id) (Layout.temporaryName_ne_descriptorName id)
        (dir / "metadata") bytes
      have hsave := Descriptor.save_eq h.plain Layout.isName_metadata hdir id bytes device
      rw [Descriptor.save_of_ok hbytes]
      refine .mapError _ (.of_eq (⟨fun hds => ?_, fun ha => ?_⟩) hsave)
      · refine (hreplace.survives ?_ ?_).cut hds
        · rintro d' (rfl | ⟨k, htemporary, hdrafted⟩)
          · exact .of_grown h
          · exact .of_drafted h htemporary hdrafted
        · rintro - d' ⟨k, htemporary, hdescriptor, hreplaced⟩
          exact .of_replaced h hbytes htemporary hdescriptor hreplaced
      · obtain ⟨k, -, -, hreplaced⟩ := hreplace.post ha
        obtain ⟨n, hn⟩ := hreplaced.slot.arrives
        exact at?_of_vacant (FilePath.behind_join _ (Layout.isName_temporaryName id))
          (Layout.isName_temporaryName id) hn hreplaced.moved

/-- **Placing a container destroys nothing.** Whether it succeeds or fails, whatever the device refuses,
and wherever it is cut off, every file that was there is as it was, the index and the chunks of the
container included, but for its descriptor, which is as it was or the new one, and for its temporary
file. No directory is removed or emptied, and what is new belongs to the container, or is on the way
to it. If it succeeds, there is no temporary file. -/
theorem provision_framed (hd : d.IsPlain) (root : FilePath) (cluster : String) (id : ContainerId)
    (settings : ContainerSettings) (device : Device) :
    let paths := Layout.containerPaths root cluster id
    Framed d paths (.keyValue id settings) ((provision root cluster id settings device).after d) ∧
    (∀ ds, CutOff (provision root cluster id settings device d).changes ds →
      Framed d paths (.keyValue id settings) (applyAll d ds)) ∧
    (∀ a, (provision root cluster id settings device d).result = .ok a →
      at? ((provision root cluster id settings device).after d)
        (Descriptor.temporary paths.descriptor) = none) := by
  have hsurvives : (provision root cluster id settings device).Survives
      (Framed d (Layout.containerPaths root cluster id) (.keyValue id settings)) d fun _ d' =>
        d'.at? (Descriptor.temporary (Layout.containerPaths root cluster id).descriptor) = none := by
    have hprepare := (prepare_grows hd root cluster id (.keyValue id settings)).mapError Error.disk
    refine (hprepare.imp (fun _ h => .of_grown h) fun _ _ h => h).bind ?_
    rintro _ ⟨rfl, hgrown, hdir⟩
    have hsave := (hgrown.save_survives hdir device).mapError Error.descriptor
    rw [← Descriptor.temporary_join] at hsave
    exact hsave.uncut.bind fun _ ⟨hframed, hnone⟩ => .pure hframed hnone
  exact ⟨hsurvives.cut (.self _), fun _ => hsurvives.cut, fun _ => hsurvives.post⟩

end

/-! ## A container that is there already -/

/-- A disk with container 5 in a cluster: an index and a chunk that are not empty, a descriptor that is
not one, and what was left of another. -/
def stocked : Disk where
  entries := [
    ([], .directory .ofDirectory),
    (["5", "containerDir0", "current", "c"], .directory .ofDirectory),
    (["5-dn-container.db", "metadata", "5", "containerDir0", "current", "c"], .file .ofFile [1]),
    (["5.container", "metadata", "5", "containerDir0", "current", "c"], .file .ofFile [2]),
    (["5.tmp", "metadata", "5", "containerDir0", "current", "c"], .file .ofFile [3]),
    (["7", "chunks", "5", "containerDir0", "current", "c"], .file .ofFile [4]),
    (["c"], .directory .ofDirectory),
    (["chunks", "5", "containerDir0", "current", "c"], .directory .ofDirectory),
    (["containerDir0", "current", "c"], .directory .ofDirectory),
    (["current", "c"], .directory .ofDirectory),
    (["metadata", "5", "containerDir0", "current", "c"], .directory .ofDirectory)]
  ascending := by decide

/-- On the sample the descriptor is replaced, and the index and the chunk are kept. -/
theorem provision_framed_stocked :
    stocked.IsPlain ∧
      (provision ⟨"/"⟩ "c" 5 {} .sound stocked).result = .ok (Layout.containerPaths ⟨"/"⟩ "c" 5) ∧
      Framed stocked (Layout.containerPaths ⟨"/"⟩ "c" 5) (.keyValue 5 {})
        ((provision ⟨"/"⟩ "c" 5 {} .sound).after stocked) ∧
      at? ((provision ⟨"/"⟩ "c" 5 {} .sound).after stocked)
        (Descriptor.temporary (Layout.containerPaths ⟨"/"⟩ "c" 5).descriptor) = none ∧
      at? ((provision ⟨"/"⟩ "c" 5 {} .sound).after stocked) (Layout.containerPaths ⟨"/"⟩ "c" 5).index =
        some (.file .ofFile [1]) ∧
      at? ((provision ⟨"/"⟩ "c" 5 {} .sound).after stocked)
        ((Layout.containerPaths ⟨"/"⟩ "c" 5).chunks / "7") = some (.file .ofFile [4]) := by
  have hplain : stocked.IsPlain :=
    ⟨IsTree.of_keys (by decide), LinkFree.of_entries fun l target hl => by simp [stocked] at hl⟩
  obtain ⟨hok, hkept⟩ : (provision ⟨"/"⟩ "c" 5 {} .sound stocked).result =
      .ok (Layout.containerPaths ⟨"/"⟩ "c" 5) ∧
      at? ((provision ⟨"/"⟩ "c" 5 {} .sound).after stocked) (Layout.containerPaths ⟨"/"⟩ "c" 5).index =
        some (.file .ofFile [1]) ∧
      at? ((provision ⟨"/"⟩ "c" 5 {} .sound).after stocked)
        ((Layout.containerPaths ⟨"/"⟩ "c" 5).chunks / "7") = some (.file .ofFile [4]) := by
    decide +kernel
  obtain ⟨hframed, -, hnone⟩ := provision_framed hplain ⟨"/"⟩ "c" 5 {} .sound
  exact ⟨hplain, hok, hframed, hnone _ hok, hkept⟩

end Placement

end StorageNode
