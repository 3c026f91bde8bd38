import StorageNode.Proofs.Descriptor
import StorageNode.Proofs.Placement.Reading
import StorageNode.Proofs.Scan.Order

/-!
# A scan finds what is placed

Writing and reading a volume agree on where containers lie and what their descriptors say
(`Placement.provision_scan`): behind a container that has been placed, a scan loads it with its settings
and paths, and comes to the same as before about every other number.

Two walks are compared, those of a scan before and after. Both are known by pairs of names
(`Scan.Clear.exists_walk`, `Scan.exists_walk_of_listable`), which are the same but for the container's
own, so `Scan.Walks.agree` applies. The container itself meets all conditions (`Placement.Holds.typed`),
and no other directory has its number, so `Scan.Walks.loads` applies.

One condition is about the container's own directory. A file that bears the temporary name already keeps
its rights and becomes the descriptor, which cannot be read if that file could not
(`Placement.exists_scan_of_unreadable`).
-/

namespace StorageNode

open FilePath (IsName)

/-! ## Scans before and after -/

namespace Scan

/-- A scan of a disk that checks for the index file. -/
def ofDisk (d : Disk) (root : FilePath) (volume : VolumeId) : Scan where
  view := d.view
  check := .indexFile
  volume := volume
  root := root

/-- **A volume that nothing is wrong with**: its root has no sub-directory, or has one, the cluster,
and a scan from an empty catalog does not fail and is not stopped. -/
inductive Clear (s : Scan) (cluster : FilePath) (r : Registry) : Prop
  | empty (h : s.view.subdirectories s.root = .ok [])
  | scanned {report : ScanReport} (h : s.view.subdirectories s.root = .ok [cluster])
      (hreport : (s.run .empty r).report = some report) (hfailure : report.failure = none)
      (haborted : report.aborted = none)

section

variable {d : Disk} {root : FilePath} {volume : VolumeId} {cluster : String} {r : Registry}

/-- A scan of a volume with one cluster walks over the directories that the pairs lead to. -/
theorem exists_walk_of_listable (volume : VolumeId) (r : Registry) (hd : d.IsPlain)
    (hcluster : d.view.subdirectories root = .ok [root / cluster])
    (hw : d.Walkable (Layout.currentDir root cluster))
    (hlist : d.Listable (Layout.currentDir root cluster)) :
    ∃ fs, ((ofDisk d root volume).run .empty r).report = some ((ofDisk d root volume).report fs) ∧
      Walks (ofDisk d root volume).toLoading .empty
        (stopsBelow d (Layout.currentDir root cluster)) fs
        ((ofDisk d root volume).run .empty r).catalog := by
  have hstops := stops_of_listable hd Layout.isName_currentName hw hlist
  obtain ⟨fs, hwalks, hreport⟩ := exists_walks (s := ofDisk d root volume) (c := .empty) (r := r)
    hd.tree.wellNamed StructureCheck.neverCrashes_indexFile (cluster_eq_ok_iff.mpr hcluster) hstops
  exact ⟨fs, hreport, hwalks⟩

/-- **The walk of a scan that nothing stops**, where there is something to walk over. -/
theorem Clear.exists_walk (hclear : (ofDisk d root volume).Clear (root / cluster) r) (hd : d.IsPlain)
    (hname : IsName cluster) (hroot : d.Listable root)
    (hw : d.Walkable (Layout.currentDir root cluster)) :
    ∃ report fs, ((ofDisk d root volume).run .empty r).report = some report ∧
      report.loaded = ((ofDisk d root volume).report fs).loaded ∧
      report.skipped = ((ofDisk d root volume).report fs).skipped ∧
      fs.findSome? Finding.malformed? = none ∧
      Walks (ofDisk d root volume).toLoading .empty
        (stopsBelow d (Layout.currentDir root cluster)) fs
        ((ofDisk d root volume).run .empty r).catalog := by
  cases hclear with
  | empty h =>
      -- without the cluster there is nothing below it
      have hfault : Scan.cluster (ofDisk d root volume) = .error (.noCluster root) := by
        rw [Scan.cluster, h]
        rfl
      have hdir : d.isDirectory (Layout.currentDir root cluster) = false := by
        rw [Bool.eq_false_iff]
        intro hcurrent
        have hmem : cluster ∈ d.view.directoryNames root :=
          (Disk.mem_directoryNames_iff hd hroot).mpr ⟨hname,
            Disk.isDirectory_of_join hd.linkFree hname Layout.isName_currentName hcurrent⟩
        have hsub : d.view.subdirectories root = .ok [] := h
        rw [Disk.subdirectories_of_listable hroot] at hsub
        simp [List.map_eq_nil_iff.mp (Except.ok.inj hsub)] at hmem
      rw [run_of_fault hfault, stopsBelow, Disk.grouped_of_not_isDirectory hdir]
      exact ⟨_, [], rfl, rfl, rfl, rfl, .done _⟩
  | scanned h hreport hfailure haborted =>
      cases hlist : d.list (Layout.currentDir root cluster) with
      | ok names =>
          obtain ⟨fs, hrun, hwalks⟩ :=
            exists_walk_of_listable volume r hd h hw ⟨names, hlist⟩
          obtain rfl := Option.some.inj (hreport.symm.trans hrun)
          exact ⟨_, fs, hrun, rfl, rfl, haborted, hwalks⟩
      | error e =>
          have hstops : stops d.view (Layout.currentDir root cluster) = .error e := by
            rw [stops, Disk.subdirectories_of_error hlist]
            rfl
          have hrun := run_of_unreadable (s := ofDisk d root volume) (c := .empty) (r := r)
            (cluster_eq_ok_iff.mpr h) hstops
          rw [hrun, stopsBelow, Disk.grouped_of_error hlist]
          exact ⟨_, [], rfl, rfl, rfl, rfl, .done _⟩

/-- No other cluster is there. -/
theorem Clear.eq_cluster (hclear : (ofDisk d root volume).Clear (root / cluster) r) (hd : d.IsPlain)
    (hname : IsName cluster) (hroot : d.Listable root) {n : String}
    (hn : n ∈ d.view.directoryNames root) : n = cluster := by
  have hsub := Disk.subdirectories_of_listable hroot
  cases hclear with
  | empty h =>
      have heq := Except.ok.inj (hsub.symm.trans h)
      simp [List.map_eq_nil_iff.mp heq] at hn
  | scanned h =>
      have heq := Except.ok.inj (hsub.symm.trans h)
      have hmem : root / n ∈ [root / cluster] := heq ▸ List.mem_map.mpr ⟨n, hn, rfl⟩
      exact FilePath.join_inj ((Disk.mem_directoryNames_iff hd hroot).mp hn).1 hname
        (List.mem_singleton.mp hmem)

end

end Scan

/-! ## The container is loaded -/

namespace Placement

open Disk Scan

/-- **Where a container may be placed**: below a root that can be listed, in a cluster of one name. What
is there of the groups can be listed, and no other directory has the number. -/
structure Fits (d : Disk) (root : FilePath) (cluster : String) (id : ContainerId) : Prop where
  plain : d.IsPlain
  isName : IsName cluster
  listable : d.Listable root
  walkable : d.Walkable (Layout.currentDir root cluster)
  own : ∀ g n, IsName g → IsName n →
    d.isDirectory (Layout.currentDir root cluster / g / n) = true →
    ContainerId.ofName? n = some id → (g, n) = own id

section

variable {d d' : Disk} {root : FilePath} {cluster g n : String} {id : ContainerId}
  {settings : ContainerSettings} {volume : VolumeId} {r : Registry} {rights : Rights} {bytes : Bytes}
  {l : Location}

/-- The directory of the container. -/
abbrev homeDir (root : FilePath) (cluster : String) (id : ContainerId) : FilePath :=
  Layout.currentDir root cluster / Layout.groupName id / ContainerId.text id

theorem containerId?_homeDir (root : FilePath) (cluster : String) (id : ContainerId) :
    containerId? (homeDir root cluster id) = some id := by
  rw [homeDir, containerId?_join _ (ContainerId.isName_text id), ContainerId.ofName?_text]

/-- The files of the container lie in its directory, and that in its cluster. -/
theorem Holds.isDirectory (h : Holds d (homeDir root cluster id / "metadata") id rights bytes)
    (hd : d.LinkFree) (hcluster : IsName cluster) :
    d.isDirectory (homeDir root cluster id) = true ∧ d.isDirectory (root / cluster) = true := by
  have hhome := isDirectory_of_join hd (ContainerId.isName_text id) Layout.isName_metadata h.metadata
  have hgroup := isDirectory_of_join hd (Layout.isName_groupName id) (ContainerId.isName_text id) hhome
  have hcurrent := isDirectory_of_join hd Layout.isName_currentName (Layout.isName_groupName id) hgroup
  exact ⟨hhome, isDirectory_of_join hd hcluster Layout.isName_currentName hcurrent⟩

/-- **A container whose files are there meets all conditions**, if its descriptor may be read. -/
theorem Holds.typed (h : Holds d (homeDir root cluster id / "metadata") id rights bytes)
    (hd : d.LinkFree) (hread : rights.read = true)
    (hparse : Descriptor.ofBytes bytes = .ok (.keyValue id settings)) :
    (ofDisk d root volume).toLoading.Typed (homeDir root cluster id) id (.keyValue id settings)
      settings := by
  obtain ⟨k, hfile⟩ := h.descriptor
  have hload : Descriptor.load d.view (homeDir root cluster id / "metadata" /
      Layout.descriptorName id) = .ok (.keyValue id settings) := by
    rw [Descriptor.load, view_read, hfile.read_eq hd, if_pos hread]
    simp only [hparse, Except.mapError]
  have hmetadata : d.view.isDirectory (homeDir root cluster id / "metadata") = true := by
    rw [view_isDirectory, h.metadata]
  have hdescriptor : d.view.isFile (homeDir root cluster id / "metadata" /
      Layout.descriptorName id) = true := by
    rw [view_isFile, hfile.isFile hd]
  exact {
    parsed := ⟨⟨hmetadata, hdescriptor⟩, hload, rfl⟩
    supported := rfl
    projected := Descriptor.settings?_keyValue id settings }

/-- The index file of the container is accepted. -/
theorem Holds.accepted (h : Holds d (homeDir root cluster id / "metadata") id rights bytes)
    (hd : d.LinkFree) (x : Descriptor) :
    (ofDisk d root volume).check (ofDisk d root volume).view x settings
      (.ofDirectory (homeDir root cluster id) id) = .accepted := by
  obtain ⟨k, r, content, hfile⟩ := h.index
  have hindex : d.view.isFile
      (ContainerPaths.ofDirectory (homeDir root cluster id) id).index = true := by
    rw [view_isFile]
    exact hfile.isFile hd
  simp only [ofDisk, StructureCheck.indexFile, if_pos hindex]

/-- A descriptor that may not be read is loaded from nowhere. -/
theorem Holds.not_typed (h : Holds d (homeDir root cluster id / "metadata") id rights bytes)
    (hd : d.LinkFree) (hread : rights.read = false) (x : Descriptor) :
    ¬ (ofDisk d root volume).toLoading.Typed (homeDir root cluster id) id x settings := fun ht => by
  obtain ⟨k, hfile⟩ := h.descriptor
  have hdenied : d.view.read (homeDir root cluster id / "metadata" / Layout.descriptorName id) =
      .error .denied := by
    rw [view_read, hfile.read_eq hd, if_neg (by simp [hread])]
  have hload : Descriptor.load d.view (homeDir root cluster id / "metadata" /
      Layout.descriptorName id) = .ok x := ht.parsed.load
  rw [Descriptor.load, hdenied] at hload
  simp at hload

/-! ## Before and after -/

/-- What a walk comes to afterwards, beside the directory of the container, it came to before. -/
theorem Spares.mem_grouped (h : Spares (Layout.home l cluster id) d d') (hfits : Fits d root cluster id)
    (hroot : d.reach root = .ok l) {x : String × String}
    (hx : x ∈ d'.view.grouped (Layout.currentDir root cluster)) (hne : x ≠ own id) :
    x ∈ d.view.grouped (Layout.currentDir root cluster) := by
  have hgrouped := h.grouped hfits.plain hroot hfits.isName hfits.walkable
  have hmem : x ∈ (d'.view.grouped (Layout.currentDir root cluster)).filter (· ≠ own id) :=
    List.mem_filter.mpr ⟨hx, decide_eq_true hne⟩
  rw [hgrouped] at hmem
  exact (List.mem_filter.mp hmem).1

/-- All directories that a walk comes to afterwards are named by numbers, if they were before. -/
theorem Spares.numbered (h : Spares (Layout.home l cluster id) d d') (hfits : Fits d root cluster id)
    (hroot : d.reach root = .ok l)
    (hnumbered : ∀ dir, .candidate dir ∈ stopsBelow d (Layout.currentDir root cluster) →
      ∃ m, containerId? dir = some m) (dir : FilePath)
    (hdir : .candidate dir ∈ stopsBelow d' (Layout.currentDir root cluster)) :
    ∃ m, containerId? dir = some m := by
  obtain ⟨x, hx, rfl⟩ := candidate_mem_stopsBelow_iff.mp hdir
  by_cases hown : x = own id
  · subst hown
    exact ⟨id, containerId?_homeDir root cluster id⟩
  · exact hnumbered _ (candidate_mem_stopsBelow_iff.mpr ⟨x, h.mem_grouped hfits hroot hx hown, rfl⟩)

/-- No other directory that a walk comes to afterwards has the number. -/
theorem Spares.eq_homeDir (h : Spares (Layout.home l cluster id) d d') (hfits : Fits d root cluster id)
    (hroot : d.reach root = .ok l) (dir : FilePath)
    (hdir : .candidate dir ∈ stopsBelow d' (Layout.currentDir root cluster))
    (hid : containerId? dir = some id) :
    dir = homeDir root cluster id := by
  obtain ⟨⟨g, n⟩, hx, rfl⟩ := candidate_mem_stopsBelow_iff.mp hdir
  by_cases hown : (g, n) = own id
  · obtain ⟨rfl, rfl⟩ := Prod.mk.inj hown
    rfl
  · obtain ⟨hg, hn, hdir⟩ := (mem_grouped_iff hfits.plain Layout.isName_currentName
      hfits.walkable).mp (h.mem_grouped hfits hroot hx hown)
    rw [containerId?_join _ hn] at hid
    exact absurd (hfits.own g n hg hn hdir hid) hown

/-- The directory of the container is among those that a walk comes to, if it is there. -/
theorem Spares.homeDir_mem (h : Spares (Layout.home l cluster id) d d') (hfits : Fits d root cluster id)
    (hroot : d.reach root = .ok l) (hhome : d'.isDirectory (homeDir root cluster id) = true) :
    .candidate (homeDir root cluster id) ∈ stopsBelow d' (Layout.currentDir root cluster) := by
  have hmem : own id ∈ d'.view.grouped (Layout.currentDir root cluster) :=
    (mem_grouped_iff h.plain Layout.isName_currentName
      (h.walkable hfits.plain hroot hfits.isName hfits.walkable)).mpr
      ⟨Layout.isName_groupName id, ContainerId.isName_text id, hhome⟩
  exact candidate_mem_stopsBelow_iff.mpr ⟨own id, hmem, rfl⟩

/-- What lies ahead without the directory of the container, by pairs of names. -/
theorem without_homeDir (hd : d.IsPlain) (hw : d.Walkable (Layout.currentDir root cluster)) :
    Scan.without (homeDir root cluster id) (stopsBelow d (Layout.currentDir root cluster)) =
      ((d.view.grouped (Layout.currentDir root cluster)).filter (· ≠ own id)).map
        (stopAt (Layout.currentDir root cluster)) := by
  rw [Scan.without, stopsBelow, List.filter_map]
  refine congrArg (List.map _) (List.filter_congr fun x hx => ?_)
  obtain ⟨g, n⟩ := x
  obtain ⟨hg, hn, -⟩ := (mem_grouped_iff hd Layout.isName_currentName hw).mp hx
  refine decide_eq_decide.mpr (not_congr ⟨fun heq => ?_, fun heq => ?_⟩)
  · have hcomponents := congrArg FilePath.components (Stop.candidate.inj heq)
    rw [homeDir, FilePath.components_join _ hn, FilePath.components_join _ hg,
      FilePath.components_join _ (ContainerId.isName_text id),
      FilePath.components_join _ (Layout.isName_groupName id)] at hcomponents
    simpa [own] using hcomponents
  · obtain ⟨rfl, rfl⟩ := Prod.mk.inj heq
    rfl

/-- What lies ahead is found by names. -/
theorem named_of_mem_stopsBelow (hd : d.IsPlain) (hw : d.Walkable (Layout.currentDir root cluster))
    {stop : Scan.Stop} (h : stop ∈ stopsBelow d (Layout.currentDir root cluster)) : stop.Named := by
  obtain ⟨⟨g, n⟩, hx, rfl⟩ := List.mem_map.mp h
  obtain ⟨-, hn, -⟩ := (mem_grouped_iff hd Layout.isName_currentName hw).mp hx
  exact ⟨_, n, hn, rfl⟩

/-- What has been walked over before is seen alike, beside the directory of the container. -/
theorem Spares.seenAlike_of_mem (h : Spares (Layout.home l cluster id) d d')
    (hfits : Fits d root cluster id) (hroot : d.reach root = .ok l) {dir : FilePath}
    (hdir : .candidate dir ∈ stopsBelow d (Layout.currentDir root cluster))
    (hne : dir ≠ homeDir root cluster id) (m : ContainerId) :
    (ContainerPaths.ofDirectory dir m).SeenAlike d.view d'.view := by
  obtain ⟨⟨g, n⟩, hx, rfl⟩ := candidate_mem_stopsBelow_iff.mp hdir
  obtain ⟨hg, hn, hthere⟩ := (mem_grouped_iff hfits.plain Layout.isName_currentName
    hfits.walkable).mp hx
  refine h.seenAlike hfits.plain hroot hfits.isName hg hn (fun heq => hne ?_) hthere m
  obtain ⟨rfl, rfl⟩ := Prod.mk.inj heq
  rfl

/-- **Scans before and after** come to the same about every other number. The one after is not stopped,
and comes to the directory of the container. -/
theorem Spares.exists_walk (h : Spares (Layout.home l cluster id) d d') (hfits : Fits d root cluster id)
    (hroot : d.reach root = .ok l) (hclear : (ofDisk d root volume).Clear (root / cluster) r)
    (hhome : d'.isDirectory (homeDir root cluster id) = true)
    (hcluster : d'.isDirectory (root / cluster) = true) :
    ∃ before fs, ((ofDisk d root volume).run .empty r).report = some before ∧
      ((ofDisk d' root volume).run .empty r).report = some ((ofDisk d' root volume).report fs) ∧
      Walks (ofDisk d' root volume).toLoading .empty (stopsBelow d' (Layout.currentDir root cluster)) fs
        ((ofDisk d' root volume).run .empty r).catalog ∧
      fs.findSome? Finding.malformed? = none ∧
      before.loaded.filter (· ≠ id) =
        ((ofDisk d' root volume).report fs).loaded.filter (· ≠ id) ∧
      (before.skipped.filter fun x => x.id ≠ id) =
        ((ofDisk d' root volume).report fs).skipped.filter (fun x => x.id ≠ id) ∧
      ((ofDisk d root volume).run .empty r).catalog.AgreeOff id
        ((ofDisk d' root volume).run .empty r).catalog := by
  have hw' := h.walkable hfits.plain hroot hfits.isName hfits.walkable
  have hnames := h.directoryNames_root hfits.plain hroot hfits.isName hfits.listable
    (fun n hn => hclear.eq_cluster hfits.plain hfits.isName hfits.listable hn) hcluster
  have hsub : d'.view.subdirectories root = .ok [root / cluster] := by
    rw [subdirectories_of_listable (h.listable_root hfits.plain.linkFree hfits.listable), hnames]
    rfl
  have hcurrent : d'.isDirectory (Layout.currentDir root cluster) = true :=
    isDirectory_of_join h.plain.linkFree Layout.isName_currentName (Layout.isName_groupName id)
      (isDirectory_of_join h.plain.linkFree (Layout.isName_groupName id)
        (ContainerId.isName_text id) hhome)
  obtain ⟨before, fs, hbefore, hloaded, hskipped, hunstopped, hwalk⟩ :=
    hclear.exists_walk hfits.plain hfits.isName hfits.listable hfits.walkable
  obtain ⟨fs', hafter, hwalk'⟩ :=
    exists_walk_of_listable volume r h.plain hsub hw' (hw'.self hcurrent)
  have hnumbered' := h.numbered hfits hroot (hwalk.malformed_eq_none_iff.mp hunstopped)
  have hl : Loading.CheckAlike (ofDisk d root volume).toLoading (ofDisk d' root volume).toLoading :=
    ⟨rfl, rfl, rfl⟩
  have hsame : Scan.without (homeDir root cluster id)
      (stopsBelow d (Layout.currentDir root cluster)) =
      Scan.without (homeDir root cluster id) (stopsBelow d' (Layout.currentDir root cluster)) := by
    rw [without_homeDir hfits.plain hfits.walkable, without_homeDir h.plain hw',
      h.grouped hfits.plain hroot hfits.isName hfits.walkable]
  obtain ⟨hothers, hcatalog⟩ := hwalk.agree hl (containerId?_homeDir root cluster id) (.refl id .empty)
    hsame (fun _ => named_of_mem_stopsBelow h.plain hw')
    (fun _ m hmem hne _ => h.seenAlike_of_mem hfits hroot hmem hne m) hwalk'
  have hreports : ReportsAgreeOff id ((ofDisk d root volume).report fs)
      ((ofDisk d' root volume).report fs') := reportsAgreeOff_report hothers
  exact ⟨before, fs', hbefore, hafter, hwalk', hwalk'.malformed_eq_none_iff.mpr hnumbered',
    hloaded ▸ hreports.loaded, hskipped ▸ hreports.skipped, hcatalog⟩

/-- **What has been placed**: the paths are those of the layout, the files are there, and everything
outside the directory of the container is spared. -/
theorem provision_spares (hfits : Fits d root cluster id) (hl : d.locate root = .ok l)
    {device : Device} {paths : ContainerPaths}
    (hok : (provision root cluster id settings device d).result = .ok paths) :
    d.reach root = .ok l ∧ paths = Layout.containerPaths root cluster id ∧
      Spares (Layout.home l cluster id) d ((provision root cluster id settings device).after d) ∧
      ∃ bytes, (Descriptor.keyValue id settings).toBytes = .ok bytes ∧
        Holds ((provision root cluster id settings device).after d)
          (homeDir root cluster id / "metadata") id
          (d.rightsFor (Layout.temporaryName id :: "metadata" :: Layout.home l cluster id))
          bytes := by
  obtain ⟨l', rights, hl', he, -⟩ := listable_iff.mp hfits.listable
  obtain rfl := Except.ok.inj (hl'.symm.trans hl)
  have hroot := reach_of_locate hfits.plain.linkFree hl he
  have hdoes := provision_does hfits.plain hroot hfits.isName id settings device
  obtain ⟨rfl, bytes, hbytes, hholds⟩ := hdoes.post hok
  exact ⟨hroot, rfl, .of_run hfits.plain hdoes.run, bytes, hbytes, hholds⟩

end

/-! ## A container half placed -/

/-- A volume at the root of the disk, where placing container 5 was given up before its descriptor had
its name: the temporary file is left over, and may be read or not. -/
def halfPlaced (readable : Bool) : Disk where
  entries := [
    ([], .directory .ofDirectory),
    (["5", "containerDir0", "current", "c"], .directory .ofDirectory),
    (["5.tmp", "metadata", "5", "containerDir0", "current", "c"], .file ⟨readable, true, false⟩ []),
    (["c"], .directory .ofDirectory),
    (["containerDir0", "current", "c"], .directory .ofDirectory),
    (["current", "c"], .directory .ofDirectory),
    (["metadata", "5", "containerDir0", "current", "c"], .directory .ofDirectory)]
  ascending := by cases readable <;> decide

section

variable (readable : Bool)

theorem isPlain_halfPlaced : (halfPlaced readable).IsPlain where
  tree := IsTree.of_keys (by cases readable <;> decide)
  linkFree := LinkFree.of_entries (by simp [halfPlaced])

theorem list_root_halfPlaced : (halfPlaced readable).list ⟨"/"⟩ = .ok ["c"] := by
  cases readable <;> decide +kernel

theorem list_current_halfPlaced :
    (halfPlaced readable).list (Layout.currentDir ⟨"/"⟩ "c") = .ok ["containerDir0"] := by
  cases readable <;> decide +kernel

theorem list_group_halfPlaced :
    (halfPlaced readable).list (Layout.currentDir ⟨"/"⟩ "c" / "containerDir0") = .ok ["5"] := by
  cases readable <;> decide +kernel

/-- The directory of container 5 is the only one that a walk comes to. -/
theorem eq_own_of_halfPlaced {g n : String} (hg : IsName g) (hn : IsName n)
    (hdir : (halfPlaced readable).isDirectory (Layout.currentDir ⟨"/"⟩ "c" / g / n) = true) :
    (g, n) = own 5 := by
  have hd := (isPlain_halfPlaced readable).linkFree
  have hgroup := isDirectory_of_join hd hg hn hdir
  obtain rfl := List.mem_singleton.mp
    (mem_of_isDirectory hd (list_current_halfPlaced readable) hg hgroup)
  obtain rfl := List.mem_singleton.mp
    (mem_of_isDirectory hd (list_group_halfPlaced readable) hn hdir)
  rfl

theorem fits_halfPlaced : Fits (halfPlaced readable) ⟨"/"⟩ "c" 5 where
  plain := isPlain_halfPlaced readable
  isName := by decide
  listable := ⟨_, list_root_halfPlaced readable⟩
  walkable := {
    self := fun _ => ⟨_, list_current_halfPlaced readable⟩
    group := fun g hg hdir => by
      obtain rfl := List.mem_singleton.mp (mem_of_isDirectory (isPlain_halfPlaced readable).linkFree
        (list_current_halfPlaced readable) hg hdir)
      exact ⟨_, list_group_halfPlaced readable⟩ }
  own := fun _ _ hg hn hdir _ => eq_own_of_halfPlaced readable hg hn hdir

theorem clear_halfPlaced :
    (ofDisk (halfPlaced readable) ⟨"/"⟩ 0).Clear ((⟨"/"⟩ : FilePath) / "c") .empty := by
  have hfits := fits_halfPlaced readable
  have hcluster : (halfPlaced readable).view.subdirectories ⟨"/"⟩ = .ok [(⟨"/"⟩ : FilePath) / "c"] := by
    have hdir : (halfPlaced readable).isDirectory ((⟨"/"⟩ : FilePath) / "c") = true := by
      cases readable <;> decide +kernel
    have hlist : (halfPlaced readable).view.list ⟨"/"⟩ = .ok ["c"] := list_root_halfPlaced readable
    simpa [List.filter_cons, hdir] using DiskView.subdirectories_of_ordered ["c"] hlist (by decide)
  have hlist : (halfPlaced readable).Listable (Layout.currentDir ⟨"/"⟩ "c") :=
    ⟨_, list_current_halfPlaced readable⟩
  obtain ⟨fs, hreport, hwalks⟩ :=
    exists_walk_of_listable 0 .empty hfits.plain hcluster hfits.walkable hlist
  refine .scanned hcluster hreport rfl (hwalks.malformed_eq_none_iff.mpr fun dir hdir => ?_)
  obtain ⟨⟨g, n⟩, hmem, rfl⟩ := candidate_mem_stopsBelow_iff.mp hdir
  obtain ⟨hg, hn, hdir⟩ :=
    (mem_grouped_iff hfits.plain Layout.isName_currentName hfits.walkable).mp hmem
  obtain ⟨rfl, rfl⟩ := Prod.mk.inj (eq_own_of_halfPlaced readable hg hn hdir)
  exact ⟨5, containerId?_homeDir ⟨"/"⟩ "c" 5⟩

/-- The directories are there already, and placing the container succeeds. -/
theorem provision_halfPlaced : (provision ⟨"/"⟩ "c" 5 {} .sound (halfPlaced readable)).result =
    .ok (Layout.containerPaths ⟨"/"⟩ "c" 5) := by
  cases readable <;> decide +kernel

/-- The descriptor gets the rights of the file that was left over. -/
theorem rightsFor_halfPlaced {l : Location} (hl : (halfPlaced readable).locate ⟨"/"⟩ = .ok l) :
    ((halfPlaced readable).rightsFor
      (Layout.temporaryName 5 :: "metadata" :: Layout.home l "c" 5)).read = readable := by
  have hroot : (halfPlaced readable).locate ⟨"/"⟩ = .ok [] := by cases readable <;> decide +kernel
  obtain rfl := Except.ok.inj (hroot.symm.trans hl)
  cases readable <;> decide +kernel

end

/-! ## The theorem -/

/-- **What is placed is found, and nothing else changes.** Where a container may be placed on a volume
that nothing is wrong with, and its descriptor is read back from the bytes it is written to: if placing
it succeeds, and the temporary file, should there have been one, may be read, then a scan afterwards
does not fail and is not stopped. It loads the container, opened, with the settings and the paths it
was placed with, and it comes to the same as before about every other number. -/
theorem provision_scan (d : Disk) (root : FilePath) (cluster : String) (id : ContainerId)
    (settings : ContainerSettings) (device : Device) (volume : VolumeId) (r : Registry)
    {paths : ContainerPaths} (hfits : Fits d root cluster id)
    (hclear : (ofDisk d root volume).Clear (root / cluster) r)
    (htemporary : ∀ l, d.locate root = .ok l → (d.rightsFor
      (Layout.temporaryName id :: "metadata" :: Layout.home l cluster id)).read = true)
    (hparse : ∀ bytes, (Descriptor.keyValue id settings).toBytes = .ok bytes →
      Descriptor.ofBytes bytes = .ok (.keyValue id settings))
    (hok : (provision root cluster id settings device d).result = .ok paths) :
    ∃ before after x, ((ofDisk d root volume).run .empty r).report = some before ∧
      ((ofDisk ((provision root cluster id settings device).after d) root volume).run .empty
        r).report = some after ∧
      after.failure = none ∧ after.aborted = none ∧ id ∈ after.loaded ∧
      ((ofDisk ((provision root cluster id settings device).after d) root volume).run .empty
        r).catalog.get? id = some x ∧
      x.state = .opened ∧ x.settings = settings ∧ x.paths = paths ∧
      before.loaded.filter (· ≠ id) = after.loaded.filter (· ≠ id) ∧
      (before.skipped.filter fun x => x.id ≠ id) = after.skipped.filter (fun x => x.id ≠ id) ∧
      ((ofDisk d root volume).run .empty r).catalog.AgreeOff id
        ((ofDisk ((provision root cluster id settings device).after d) root volume).run .empty
          r).catalog := by
  obtain ⟨l, -, hl, -⟩ := listable_iff.mp hfits.listable
  obtain ⟨hroot, rfl, hspares, bytes, hbytes, hholds⟩ := provision_spares hfits hl hok
  generalize (provision root cluster id settings device).after d = d' at hspares hholds ⊢
  have hd' := hspares.plain.linkFree
  obtain ⟨hhome, hcluster⟩ := hholds.isDirectory hd' hfits.isName
  obtain ⟨before, fs, hbefore, hafter, hwalk, hunstopped, hloaded, hskipped, hcatalog⟩ :=
    hspares.exists_walk hfits hroot hclear hhome hcluster
  have htyped : (ofDisk d' root volume).toLoading.Typed (homeDir root cluster id) id
      (.keyValue id settings) settings := hholds.typed hd' (htemporary l hl) (hparse bytes hbytes)
  obtain ⟨hfound, hget⟩ := hwalk.loads (ContainerId.isName_text id)
    (containerId?_homeDir root cluster id) (hspares.homeDir_mem hfits hroot hhome)
    (hwalk.malformed_eq_none_iff.mp hunstopped) (hspares.eq_homeDir hfits hroot) htyped
    (hholds.accepted hd' _) rfl
  exact ⟨before, _, _, hbefore, hafter, rfl, hunstopped, (mem_loaded_report id).mpr ⟨_, hfound⟩, hget,
    rfl, rfl, rfl, hloaded, hskipped, hcatalog⟩

/-- On the sample, container 5 is placed at the second attempt. -/
theorem provision_scan_sample :
    Fits (halfPlaced true) ⟨"/"⟩ "c" 5 ∧
    (ofDisk (halfPlaced true) ⟨"/"⟩ 0).Clear ((⟨"/"⟩ : FilePath) / "c") .empty ∧
    (provision ⟨"/"⟩ "c" 5 {} .sound (halfPlaced true)).result =
      .ok (Layout.containerPaths ⟨"/"⟩ "c" 5) ∧
    ∃ after x,
      ((ofDisk ((provision ⟨"/"⟩ "c" 5 {} .sound).after (halfPlaced true)) ⟨"/"⟩ 0).run .empty
        .empty).report = some after ∧ 5 ∈ after.loaded ∧
      ((ofDisk ((provision ⟨"/"⟩ "c" 5 {} .sound).after (halfPlaced true)) ⟨"/"⟩ 0).run .empty
        .empty).catalog.get? 5 = some x ∧
      x.state = .opened ∧ x.settings = {} ∧ x.paths = Layout.containerPaths ⟨"/"⟩ "c" 5 := by
  have hfits := fits_halfPlaced true
  have hclear := clear_halfPlaced true
  have hok := provision_halfPlaced true
  obtain ⟨-, after, x, -, hafter, -, -, hloaded, hget, hstate, hsettings, hpaths, -⟩ :=
    provision_scan (halfPlaced true) ⟨"/"⟩ "c" 5 {} .sound 0 .empty hfits hclear
      (fun _ => rightsFor_halfPlaced true) (fun _ => Descriptor.ofBytes_sample) hok
  exact ⟨hfits, hclear, hok, after, x, hafter, hloaded, hget, hstate, hsettings, hpaths⟩

/-! ## Why the temporary file has to be readable -/

/-- **What cannot be read is not found.** If a temporary file that may not be read was left over,
placing a container may succeed, but a scan afterwards does not load it. -/
theorem exists_scan_of_unreadable (d : Disk) (root : FilePath) (cluster : String) (id : ContainerId)
    (settings : ContainerSettings) (device : Device) (volume : VolumeId) (r : Registry)
    {paths : ContainerPaths} (hfits : Fits d root cluster id)
    (hclear : (ofDisk d root volume).Clear (root / cluster) r)
    (htemporary : ∀ l, d.locate root = .ok l → (d.rightsFor
      (Layout.temporaryName id :: "metadata" :: Layout.home l cluster id)).read = false)
    (hok : (provision root cluster id settings device d).result = .ok paths) :
    ∃ after,
      ((ofDisk ((provision root cluster id settings device).after d) root volume).run .empty
        r).report = some after ∧
      after.failure = none ∧ after.aborted = none ∧ id ∉ after.loaded := by
  obtain ⟨l, -, hl, -⟩ := listable_iff.mp hfits.listable
  obtain ⟨hroot, rfl, hspares, bytes, -, hholds⟩ := provision_spares hfits hl hok
  generalize (provision root cluster id settings device).after d = d' at hspares hholds ⊢
  have hd' := hspares.plain.linkFree
  obtain ⟨hhome, hcluster⟩ := hholds.isDirectory hd' hfits.isName
  obtain ⟨-, fs, -, hafter, hwalk, hunstopped, -⟩ :=
    hspares.exists_walk hfits hroot hclear hhome hcluster
  refine ⟨_, hafter, rfl, hunstopped, fun hloaded => ?_⟩
  obtain ⟨state, hfound⟩ := (mem_loaded_report id).mp hloaded
  obtain ⟨dir, x, settings', hdir, hid, htyped⟩ := hwalk.exists_typed hfound
  obtain rfl := hspares.eq_homeDir hfits hroot dir hdir hid
  exact hholds.not_typed hd' (htemporary l hl) x htyped

/-- **Without a readable temporary file, containers are placed and not found.** On the sample, all other
conditions of `provision_scan` are met. -/
theorem provision_scan_needs_readable :
    Fits (halfPlaced false) ⟨"/"⟩ "c" 5 ∧
    (ofDisk (halfPlaced false) ⟨"/"⟩ 0).Clear ((⟨"/"⟩ : FilePath) / "c") .empty ∧
    (∀ bytes, (Descriptor.keyValue 5 {}).toBytes = .ok bytes →
      Descriptor.ofBytes bytes = .ok (.keyValue 5 {})) ∧
    (provision ⟨"/"⟩ "c" 5 {} .sound (halfPlaced false)).result =
      .ok (Layout.containerPaths ⟨"/"⟩ "c" 5) ∧
    ∃ after,
      ((ofDisk ((provision ⟨"/"⟩ "c" 5 {} .sound).after (halfPlaced false)) ⟨"/"⟩ 0).run .empty
        .empty).report = some after ∧ 5 ∉ after.loaded := by
  have hfits := fits_halfPlaced false
  have hclear := clear_halfPlaced false
  have hok := provision_halfPlaced false
  obtain ⟨after, hafter, -, -, hloaded⟩ := exists_scan_of_unreadable (halfPlaced false) ⟨"/"⟩ "c" 5 {}
    .sound 0 .empty hfits hclear (fun _ => rightsFor_halfPlaced false) hok
  exact ⟨hfits, hclear, fun _ => Descriptor.ofBytes_sample, hok, after, hafter, hloaded⟩

end Placement

end StorageNode
