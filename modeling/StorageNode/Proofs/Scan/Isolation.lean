import StorageNode.Proofs.Disk.Outside
import StorageNode.Proofs.Scan.Firsts

/-!
# Containers do not disturb each other

A container directory is known to a scan by its name, and whatever lies in it concerns one number. Two
scans that differ in what is seen inside one container directory come to the same about every other
number (`Scan.run_isolates`). Two disks that are the same but for what lies in that directory differ so
(`Disk.AlikeOutside.agreeOutside`).

The catalog is what could carry a difference on, since all visits share it. Two catalogs that differ
in one number at most (`Catalog.AgreeOff`) are kept so by a visit to any directory
(`Loading.Decided.agreeOff`), and a directory of another number has the same outcome in both
(`Loading.Decided.congr`). The induction over the walk (`Scan.Walks.passOver`) compares it with one that
passes the directory over, under another view of the disk; two walks that differ in the directory are
compared through it (`Scan.Walks.agree`).
-/

namespace StorageNode

/-! ## What differs -/

/-- The two views show the same of a container: whether its files are there, and its descriptor. -/
structure ContainerPaths.SeenAlike (paths : ContainerPaths) (v w : DiskView) : Prop where
  metadata : v.isDirectory paths.metadata = w.isDirectory paths.metadata
  descriptor : v.isFile paths.descriptor = w.isFile paths.descriptor
  content : v.read paths.descriptor = w.read paths.descriptor
  index : v.isFile paths.index = w.isFile paths.index

/-- The two catalogs hold the same under every number but one. -/
def Catalog.AgreeOff (n : ContainerId) (c d : Catalog) : Prop := ∀ id, id ≠ n → c.get? id = d.get? id

namespace Catalog.AgreeOff

variable {n : ContainerId} {c d e : Catalog}

theorem refl (n : ContainerId) (c : Catalog) : AgreeOff n c c := fun _ _ => rfl

theorem symm (h : AgreeOff n c d) : AgreeOff n d c := fun id hid => (h id hid).symm

theorem trans (h : AgreeOff n c d) (h' : AgreeOff n d e) : AgreeOff n c e :=
  fun id hid => (h id hid).trans (h' id hid)

end Catalog.AgreeOff

namespace Loading

/-- Two ways of loading that check for the index file, on the same volume. -/
structure CheckAlike (l l' : Loading) : Prop where
  indexFile : l.check = .indexFile
  indexFile' : l'.check = .indexFile
  volume : l'.volume = l.volume

section

variable {l l' : Loading} {dir : FilePath} {id n : ContainerId} {d : Descriptor}
  {settings : ContainerSettings} {c c' k : Catalog} {a : Attempt}

theorem CheckAlike.neverCrashes (h : CheckAlike l l') :
    l.check.NeverCrashes ∧ l'.check.NeverCrashes := by
  rw [h.indexFile, h.indexFile']
  exact ⟨StructureCheck.neverCrashes_indexFile, StructureCheck.neverCrashes_indexFile⟩

theorem CheckAlike.refl (h : CheckAlike l l') : CheckAlike l' l' :=
  ⟨h.indexFile', h.indexFile', rfl⟩

/-- What is seen of a container is what the conditions speak of. -/
theorem load_congr (hseen : (ContainerPaths.ofDirectory dir id).SeenAlike l.view l'.view) :
    Descriptor.load l'.view (dir / "metadata" / Layout.descriptorName id) =
      Descriptor.load l.view (dir / "metadata" / Layout.descriptorName id) := by
  have hread : l.view.read (dir / "metadata" / Layout.descriptorName id) =
      l'.view.read (dir / "metadata" / Layout.descriptorName id) := hseen.content
  rw [Descriptor.load, Descriptor.load, hread]

theorem Found.congr (hseen : (ContainerPaths.ofDirectory dir id).SeenAlike l.view l'.view)
    (h : l.Found dir id) : l'.Found dir id where
  metadata := hseen.metadata.symm.trans h.metadata
  descriptor := hseen.descriptor.symm.trans h.descriptor

theorem Parsed.congr (hseen : (ContainerPaths.ofDirectory dir id).SeenAlike l.view l'.view)
    (h : l.Parsed dir id d) : l'.Parsed dir id d where
  found := h.found.congr hseen
  load := (load_congr hseen).trans h.load
  own := h.own

theorem Typed.congr (hseen : (ContainerPaths.ofDirectory dir id).SeenAlike l.view l'.view)
    (h : l.Typed dir id d settings) : l'.Typed dir id d settings where
  parsed := h.parsed.congr hseen
  supported := h.supported
  projected := h.projected

theorem CheckAlike.check_congr (h : CheckAlike l l')
    (hseen : (ContainerPaths.ofDirectory dir id).SeenAlike l.view l'.view) :
    l'.check l'.view d settings (.ofDirectory dir id) =
      l.check l.view d settings (.ofDirectory dir id) := by
  rw [h.indexFile, h.indexFile', StructureCheck.indexFile, StructureCheck.indexFile, hseen.index]

theorem CheckAlike.described_congr (h : CheckAlike l l') :
    l'.described dir id d settings = l.described dir id d settings := by
  rw [described, described, h.volume]

/-- A decision changes the catalog at one number only. -/
theorem Decided.agreeOff (h : l.Decided dir id c a c') : c.AgreeOff id c' :=
  fun _ hm => (h.get?_of_ne hm).symm

/-- **What is seen alike is decided alike**, from catalogs that differ in another number. -/
theorem Decided.congr (hl : CheckAlike l l')
    (hseen : (ContainerPaths.ofDirectory dir id).SeenAlike l.view l'.view) (hid : id ≠ n)
    (hk : c.AgreeOff n k) (h : l.Decided dir id c a c') :
    ∃ k', l'.Decided dir id k a k' ∧ c'.AgreeOff n k' := by
  cases h with
  | missingMetadata h => exact ⟨k, .missingMetadata (hseen.metadata.symm.trans h), hk⟩
  | missingDescriptor hm h =>
      exact ⟨k, .missingDescriptor (hseen.metadata.symm.trans hm)
        (hseen.descriptor.symm.trans h), hk⟩
  | unreadable hf h => exact ⟨k, .unreadable (hf.congr hseen) ((load_congr hseen).trans h), hk⟩
  | foreign hf hload h =>
      exact ⟨k, .foreign (hf.congr hseen) ((load_congr hseen).trans hload) h, hk⟩
  | unsupported hp h => exact ⟨k, .unsupported (hp.congr hseen) h, hk⟩
  | payload hp hkind h => exact ⟨k, .payload (hp.congr hseen) hkind h, hk⟩
  | «structure» ht h =>
      exact ⟨k, .structure (ht.congr hseen) ((hl.check_congr hseen).trans h), hk⟩
  | duplicate ht ha h =>
      rw [← hl.volume]
      exact ⟨k, .duplicate (ht.congr hseen) ((hl.check_congr hseen).trans ha)
        ((hk id hid).symm.trans h), hk⟩
  | @loaded d settings _ ht ha hg =>
      have hvacant : k.get? (l.described dir id d settings).id = none :=
        (hk id hid).symm.trans hg.vacant
      obtain ⟨k', -, hg'⟩ := Catalog.admit_of_none hvacant
      rw [← hl.described_congr] at hg' ⊢
      refine ⟨k', .loaded (ht.congr hseen) ((hl.check_congr hseen).trans ha) hg', fun m hm => ?_⟩
      rw [hg.entries m, hg'.entries m, hk m hm, hl.described_congr]

end

end Loading

namespace Scan

/-! ## Walks that differ in one directory -/

/-- What is found of a container with the number. -/
def Finding.isOf (n : ContainerId) : Finding → Bool
  | loaded id _ => id = n
  | skipped x => x.id = n
  | _ => false

/-- What is found of everything but the containers with a number. -/
def others (n : ContainerId) (fs : List Finding) : List Finding := fs.filter fun f => !f.isOf n

section

variable {l l' : Loading} {c c' k k' : Catalog} {n : ContainerId} {home : FilePath}
  {ss : List Stop} {fs : List Finding}

theorem isOf_finding {dir : FilePath} {id : ContainerId} {a : Attempt}
    (h : l.Decided dir id c a c') : (finding id dir a).isOf n = decide (id = n) := by
  rcases h.gains_or_eq with ⟨x, rfl, -⟩ | ⟨cause, rfl, -⟩ <;> rfl

/-- What lies ahead without a directory. -/
def without (home : FilePath) (ss : List Stop) : List Stop := ss.filter (· ≠ .candidate home)

theorem without_cons_of_ne {stop : Stop} (h : stop ≠ .candidate home) :
    without home (stop :: ss) = stop :: without home ss := by simp [without, h]

theorem without_cons_self : without home (.candidate home :: ss) = without home ss := by
  simp [without]

theorem others_cons_of_isOf {f : Finding} (h : f.isOf n = true) :
    others n (f :: fs) = others n fs := by simp [others, h]

theorem others_cons_of_not_isOf {f : Finding} (h : f.isOf n = false) :
    others n (f :: fs) = f :: others n fs := by simp [others, h]

/-- **A walk that passes a directory over** comes to the same about all other numbers, if everything
else on the way is seen alike. -/
theorem Walks.passOver (hl : Loading.CheckAlike l l') (hhome : containerId? home = some n)
    (hk : c.AgreeOff n k) (h : Walks l c ss fs c')
    (hseen : ∀ dir id, .candidate dir ∈ ss → dir ≠ home → containerId? dir = some id →
      (ContainerPaths.ofDirectory dir id).SeenAlike l.view l'.view) :
    ∃ fs' k', Walks l' k (without home ss) fs' k' ∧ others n fs = others n fs' ∧
      c'.AgreeOff n k' := by
  induction h generalizing k with
  | done c => exact ⟨[], k, .done k, rfl, hk⟩
  | @unreadable _ _ g e _ _ _ ih =>
      obtain ⟨fs', k', hw, hothers, hk'⟩ :=
        ih hk fun dir id hmem => hseen dir id (List.mem_cons_of_mem _ hmem)
      rw [without_cons_of_ne (by simp)]
      refine ⟨_, k', hw.unreadable, ?_, hk'⟩
      rw [others_cons_of_not_isOf rfl, others_cons_of_not_isOf rfl, hothers]
  | @malformed dir c ss hdir =>
      have hne : dir ≠ home := by
        rintro rfl
        exact absurd (hdir.symm.trans hhome) (by simp)
      rw [without_cons_of_ne (by simpa using hne)]
      exact ⟨_, k, .malformed k _ hdir, rfl, hk⟩
  | @candidate c c₁ _ dir id a _ _ hid ha _ ih =>
      have hrest := fun {k : Catalog} (hk : c₁.AgreeOff n k) =>
        ih hk fun dir id hmem => hseen dir id (List.mem_cons_of_mem _ hmem)
      by_cases hdir : dir = home
      · -- the directory itself: only the catalog is touched, under its own number
        subst hdir
        obtain rfl : id = n := Option.some.inj (hid.symm.trans hhome)
        obtain ⟨fs', k', hw, hothers, hk'⟩ := hrest (ha.agreeOff.symm.trans hk)
        rw [without_cons_self, others_cons_of_isOf (by simp [isOf_finding ha])]
        exact ⟨fs', k', hw, hothers, hk'⟩
      rw [without_cons_of_ne (by simpa using hdir)]
      by_cases hn : id = n
      · -- another directory of the same number: what becomes of it does not count
        subst hn
        obtain ⟨b, k₁, hb⟩ := Loading.exists_decided hl.neverCrashes.2 dir id k
        obtain ⟨fs', k', hw, hothers, hk'⟩ :=
          hrest ((ha.agreeOff.symm.trans hk).trans hb.agreeOff)
        refine ⟨_, k', hw.candidate hid hb, ?_, hk'⟩
        rw [others_cons_of_isOf (by simp [isOf_finding ha]),
          others_cons_of_isOf (by simp [isOf_finding hb]), hothers]
      · obtain ⟨k₁, hb, hk₁⟩ :=
          ha.congr hl (hseen dir id List.mem_cons_self hdir hid) hn hk
        obtain ⟨fs', k', hw, hothers, hk'⟩ := hrest hk₁
        refine ⟨_, k', hw.candidate hid hb, ?_, hk'⟩
        rw [others_cons_of_not_isOf (by simp [isOf_finding ha, hn]),
          others_cons_of_not_isOf (by simp [isOf_finding hb, hn]), hothers]

/-- There is one walk over what lies ahead. -/
theorem Walks.unique (h : Walks l c ss fs c') (hnamed : ∀ stop ∈ ss, stop.Named) :
    ∀ {fs' k'}, Walks l c ss fs' k' → fs = fs' ∧ c' = k' := by
  induction h with
  | done =>
      rintro _ _ ⟨⟩
      exact ⟨rfl, rfl⟩
  | unreadable _ ih =>
      rintro _ _ (_ | hw)
      obtain ⟨rfl, rfl⟩ := ih (fun stop hs => hnamed stop (List.mem_cons_of_mem _ hs)) hw
      exact ⟨rfl, rfl⟩
  | malformed c ss hdir =>
      rintro _ _ hw
      cases hw with
      | malformed => exact ⟨rfl, rfl⟩
      | candidate hid => simp [hdir] at hid
  | candidate hid ha _ ih =>
      rintro _ _ hw
      cases hw with
      | malformed _ _ hdir => simp [hid] at hdir
      | candidate hid' hb hw =>
          obtain rfl := Option.some.inj (hid.symm.trans hid')
          obtain ⟨parent, name, hname, rfl⟩ := hnamed _ List.mem_cons_self
          obtain ⟨rfl, rfl⟩ := Prod.mk.inj
            ((Loading.attempt_of_decided hname ha).symm.trans (Loading.attempt_of_decided hname hb))
          obtain ⟨rfl, rfl⟩ := ih (fun stop hs => hnamed stop (List.mem_cons_of_mem _ hs)) hw
          exact ⟨rfl, rfl⟩

/-- **Two walks that differ in one directory** come to the same about all other numbers. -/
theorem Walks.agree {ss' : List Stop} {fs' : List Finding} (hl : Loading.CheckAlike l l')
    (hhome : containerId? home = some n) (hk : c.AgreeOff n k)
    (hss : without home ss = without home ss') (hnamed : ∀ stop ∈ ss', stop.Named)
    (hseen : ∀ dir id, .candidate dir ∈ ss → dir ≠ home → containerId? dir = some id →
      (ContainerPaths.ofDirectory dir id).SeenAlike l.view l'.view)
    (h : Walks l c ss fs c') (h' : Walks l' k ss' fs' k') :
    others n fs = others n fs' ∧ c'.AgreeOff n k' := by
  obtain ⟨gs, m, hw, hothers, hm⟩ := h.passOver hl hhome hk hseen
  obtain ⟨gs', m', hw', hothers', hm'⟩ := h'.passOver hl.refl hhome (.refl n k)
    fun _ _ _ _ _ => ⟨rfl, rfl, rfl, rfl⟩
  rw [hss] at hw
  obtain ⟨rfl, rfl⟩ := hw.unique (fun stop hs => hnamed stop (List.mem_filter.mp hs).1) hw'
  exact ⟨hothers.trans hothers'.symm, hm.trans hm'.symm⟩

end

/-! ## Reports that differ in one container -/

/-- Two reports say the same of all containers but those with one number. -/
structure ReportsAgreeOff (n : ContainerId) (r r' : ScanReport) : Prop where
  failure : r.failure = r'.failure
  aborted : r.aborted = r'.aborted
  loaded : r.loaded.filter (· ≠ n) = r'.loaded.filter (· ≠ n)
  skipped : (r.skipped.filter fun x => x.id ≠ n) = r'.skipped.filter fun x => x.id ≠ n

variable {n : ContainerId}

/-- Leaving out what is found of one number leaves out what is listed of it. -/
theorem filterMap_others {β : Type} {f : Finding → Option β} {p : β → Bool}
    (h : ∀ x, (f x).filter p = if !x.isOf n then f x else none) (fs : List Finding) :
    (fs.filterMap f).filter p = (others n fs).filterMap f := by
  rw [others, List.filter_filterMap, List.filterMap_filter, funext h]

/-- Findings that agree on all other numbers give reports that do. -/
theorem reportsAgreeOff_report {s s' : Scan} {fs fs' : List Finding}
    (h : others n fs = others n fs') : ReportsAgreeOff n (s.report fs) (s'.report fs') := by
  have hloaded : ∀ x : Finding, (x.loaded?).filter (· ≠ n) = if !x.isOf n then x.loaded? else none :=
    fun x => by cases x <;> simp [Finding.loaded?, Finding.isOf, Option.filter]
  have hskipped : ∀ x : Finding, (x.skipped?).filter (fun y => y.id ≠ n) =
      if !x.isOf n then x.skipped? else none :=
    fun x => by cases x <;> simp [Finding.skipped?, Finding.isOf, Option.filter]
  have haborted : ∀ gs, (others n gs).filterMap Finding.malformed? =
      gs.filterMap Finding.malformed? := fun gs => by
    rw [others, List.filterMap_filter]
    refine congrArg (List.filterMap · gs) (funext fun x => ?_)
    cases x <;> simp [Finding.malformed?, Finding.isOf]
  exact {
    failure := rfl
    aborted := by
      rw [aborted_report, aborted_report, ← List.head?_filterMap, ← List.head?_filterMap,
        ← haborted fs, h, haborted]
    loaded := by
      rw [loaded_report, loaded_report, filterMap_others hloaded, filterMap_others hloaded, h]
    skipped := by
      rw [skipped_report, skipped_report, filterMap_others hskipped, filterMap_others hskipped, h] }

/-! ## What lies outside a container directory -/

section

variable {v w : DiskView} {root home : FilePath}

/-- Above a directory nothing lies in it. -/
theorem agreeAt_above (h : v.AgreeOutside w root home) {p : FilePath} (hbelow : p.IsBelow root)
    (hp : p.components.length < home.components.length) : v.AgreeAt w p :=
  h p hbelow fun hprefix => by
    have := hprefix.length_le
    omega

/-- In another container directory nothing lies in the one. -/
theorem agreeAt_beside (hhome : Layout.IsContainerDirectory root home) (h : v.AgreeOutside w root home)
    {dir p : FilePath} (hdir : Layout.IsContainerDirectory root dir) (hne : dir ≠ home)
    (hbelow : p.IsBelow root) (hp : dir.components <+: p.components) : v.AgreeAt w p := by
  refine h p hbelow fun hprefix => hne ?_
  have hlength := hdir.length_components.trans hhome.length_components.symm
  exact hdir.eq_of_components hhome
    ((List.prefix_of_prefix_length_le hp hprefix (Nat.le_of_eq hlength)).eq_of_length hlength)

/-- The files of a container beside the one are seen alike. -/
theorem seenAlike_beside (hhome : Layout.IsContainerDirectory root home)
    (h : v.AgreeOutside w root home) {dir : FilePath} (hdir : Layout.IsContainerDirectory root dir)
    (hne : dir ≠ home) (id : ContainerId) : (ContainerPaths.ofDirectory dir id).SeenAlike v w := by
  have hmetadata : dir.components <+: (dir / "metadata").components := by
    rw [FilePath.components_join dir Layout.isName_metadata]
    exact List.prefix_append _ _
  have hbelow := hdir.isBelow.join Layout.isName_metadata
  have hbeside := agreeAt_beside hhome h hdir hne hbelow hmetadata
  have hfile : ∀ {name}, FilePath.IsName name → v.AgreeAt w (dir / "metadata" / name) := by
    intro name hname
    refine agreeAt_beside hhome h hdir hne (hbelow.join hname) ?_
    rw [FilePath.components_join _ hname]
    exact hmetadata.trans (List.prefix_append _ _)
  exact {
    metadata := hbeside.isDirectory
    descriptor := (hfile (Layout.isName_descriptorName id)).isFile
    content := (hfile (Layout.isName_descriptorName id)).read
    index := (hfile (Layout.isName_indexName id)).isFile }

/-- What the walk comes to are container directories of the volume. -/
theorem isContainerDirectory_of_mem_stops (hv : v.WellNamed) {cluster : FilePath}
    (hroot : v.subdirectories root = .ok [cluster]) {ss : List Stop}
    (hstops : stops v (cluster / Layout.currentName) = .ok ss) {dir : FilePath}
    (hdir : .candidate dir ∈ ss) : Layout.IsContainerDirectory root dir := by
  obtain ⟨c, hc, rfl, -⟩ :=
    DiskView.exists_name_of_mem_subdirectories hv hroot List.mem_cons_self
  obtain ⟨groups, group, ds, hgroups, hgroup, hsub, hds⟩ := exists_group_of_mem_stops hstops hdir
  obtain ⟨g, hg, rfl, -⟩ := DiskView.exists_name_of_mem_subdirectories hv hgroups hgroup
  obtain ⟨n, hn, rfl, -⟩ := DiskView.exists_name_of_mem_subdirectories hv hsub hds
  exact ⟨c, g, n, hc, hg, hn, rfl⟩

/-- A directory above shows the same sub-directories, if they lie above the one, too. -/
theorem subdirectories_above (hv : v.WellNamed) (h : v.AgreeOutside w root home) {p : FilePath}
    (hbelow : p.IsBelow root) (hp : p.components.length + 1 < home.components.length) :
    v.subdirectories p = w.subdirectories p := by
  refine DiskView.subdirectories_congr (agreeAt_above h hbelow (by omega)).list fun hlist hn => ?_
  have hname := hv.isName hlist _ hn
  refine (agreeAt_above h (hbelow.join hname) ?_).isDirectory
  rw [FilePath.components_join p hname, List.length_append, List.length_singleton]
  exact hp

/-- The groups show the same sub-directories: the one directory is there in both. -/
theorem stopsIn_congr (hv : v.WellNamed) (hhome : Layout.IsContainerDirectory root home)
    (h : v.AgreeOutside w root home) (hdir : v.isDirectory home = true)
    (hdir' : w.isDirectory home = true) {c g : String} (hc : FilePath.IsName c)
    (hg : FilePath.IsName g) :
    stopsIn v (root / c / Layout.currentName / g) = stopsIn w (root / c / Layout.currentName / g) := by
  have hlength := hhome.length_components
  have hbelow : (root / c / Layout.currentName / g).IsBelow root :=
    (((FilePath.IsBelow.refl root).join hc).join Layout.isName_currentName).join hg
  have hgroup : (root / c / Layout.currentName / g).components.length =
      root.components.length + 3 := by
    rw [FilePath.components_join _ hg, FilePath.components_join _ Layout.isName_currentName,
      FilePath.components_join _ hc]
    simp
  have hsub : v.subdirectories (root / c / Layout.currentName / g) =
      w.subdirectories (root / c / Layout.currentName / g) := by
    refine DiskView.subdirectories_congr (agreeAt_above h hbelow (by omega)).list
      fun {_ n} hlist hmem => ?_
    by_cases hne : root / c / Layout.currentName / g / n = home
    · rw [hne, hdir, hdir']
    · have hn := hv.isName hlist n hmem
      exact (agreeAt_beside hhome h ⟨c, g, n, hc, hg, hn, rfl⟩ hne (hbelow.join hn)
        (List.prefix_refl _)).isDirectory
  rw [stopsIn, stopsIn, hsub]

/-- The same lies ahead. -/
theorem stops_congr (hv : v.WellNamed) (hhome : Layout.IsContainerDirectory root home)
    (h : v.AgreeOutside w root home) (hdir : v.isDirectory home = true)
    (hdir' : w.isDirectory home = true) {c : String} (hc : FilePath.IsName c) :
    stops v (root / c / Layout.currentName) = stops w (root / c / Layout.currentName) := by
  have hsub : v.subdirectories (root / c / Layout.currentName) =
      w.subdirectories (root / c / Layout.currentName) := by
    refine subdirectories_above hv h
      (((FilePath.IsBelow.refl root).join hc).join Layout.isName_currentName) ?_
    rw [hhome.length_components, FilePath.components_join _ Layout.isName_currentName,
      FilePath.components_join _ hc]
    simp
  rw [stops, stops, ← hsub]
  cases hgroups : v.subdirectories (root / c / Layout.currentName) with
  | error e => rfl
  | ok groups =>
      refine congrArg (Except.ok ∘ List.flatten) (List.map_congr_left fun group hgroup => ?_)
      obtain ⟨g, hg, rfl, -⟩ := DiskView.exists_name_of_mem_subdirectories hv hgroups hgroup
      exact stopsIn_congr hv hhome h hdir hdir' hc hg

/-- The volume has the same cluster, or fails alike. -/
theorem cluster_congr {s : Scan} (hv : s.view.WellNamed)
    (hhome : Layout.IsContainerDirectory s.root home) (h : s.view.AgreeOutside w s.root home) :
    cluster { s with view := w } = s.cluster := by
  have hroot := subdirectories_above hv h (FilePath.IsBelow.refl s.root)
    (by rw [hhome.length_components]; omega)
  rw [cluster, cluster, ← hroot]

/-- **The same directories are processed**, whatever lies in the one. -/
theorem processed_congr {s : Scan} (hv : s.view.WellNamed)
    (hhome : Layout.IsContainerDirectory s.root home) (h : s.view.AgreeOutside w s.root home)
    (hdir : s.view.isDirectory home = true) (hdir' : w.isDirectory home = true) :
    processed { s with view := w } = s.processed := by
  have hcluster := cluster_congr hv hhome h
  cases hs : s.cluster with
  | error fault => rw [processed_of_fault hs, processed_of_fault (hcluster.trans hs)]
  | ok cluster =>
      obtain ⟨name, hname, rfl, -⟩ :=
        DiskView.exists_name_of_mem_subdirectories hv (cluster_eq_ok_iff.mp hs) List.mem_cons_self
      have hstops := stops_congr hv hhome h hdir hdir' hname
      have hs' := hcluster.trans hs
      cases hss : stops s.view (s.root / name / Layout.currentName) with
      | error e =>
          rw [processed_of_unreadable hs hss, processed_of_unreadable hs' (hstops.symm.trans hss)]
      | ok ss => rw [processed_of_stops hs hss, processed_of_stops hs' (hstops.symm.trans hss)]

end

/-! ## The theorem -/

/-- **What lies in a container directory concerns its number only.** On two file systems that give the
same answers about what goes down from the root outside one container directory, which is there in both, a
scan of the volume fails or is stopped alike, says the same of every other number in the same order, and
leaves catalogs that agree on every other number. -/
theorem run_isolates (s : Scan) (w : DiskView) (c : Catalog) (r : Registry)
    (hv : s.view.WellNamed) (hw : w.WellNamed) (hcheck : s.check = .indexFile) {home : FilePath}
    {n : ContainerId} (hhome : Layout.IsContainerDirectory s.root home)
    (hn : containerId? home = some n) (hdir : s.view.isDirectory home = true)
    (hdir' : w.isDirectory home = true) (hagree : s.view.AgreeOutside w s.root home) :
    ∃ report report', (s.run c r).report = some report ∧
      (run { s with view := w } c r).report = some report' ∧ ReportsAgreeOff n report report' ∧
      (s.run c r).catalog.AgreeOff n (run { s with view := w } c r).catalog := by
  have hcluster := cluster_congr hv hhome hagree
  cases hs : s.cluster with
  | error fault =>
      have hs' := hcluster.trans hs
      rw [run_of_fault hs, run_of_fault hs']
      exact ⟨_, _, rfl, rfl, ⟨rfl, rfl, rfl, rfl⟩, .refl n c⟩
  | ok cluster =>
      have hs' := hcluster.trans hs
      have hsub := cluster_eq_ok_iff.mp hs
      obtain ⟨name, hname, rfl, -⟩ :=
        DiskView.exists_name_of_mem_subdirectories hv hsub List.mem_cons_self
      have hstops := stops_congr hv hhome hagree hdir hdir' hname
      cases hss : stops s.view (s.root / name / Layout.currentName) with
      | error e =>
          rw [run_of_unreadable hs hss, run_of_unreadable hs' (hstops.symm.trans hss)]
          exact ⟨_, _, rfl, rfl, ⟨rfl, rfl, rfl, rfl⟩, .refl n c⟩
      | ok ss =>
          have hss' := hstops.symm.trans hss
          have hl : Loading.CheckAlike s.toLoading (toLoading { s with view := w }) :=
            ⟨hcheck, hcheck, rfl⟩
          obtain ⟨fs, hwalks, hreport⟩ := exists_walks (c := c) (r := r) hv hl.neverCrashes.1 hs hss
          obtain ⟨fs', hwalks', hreport'⟩ :=
            exists_walks (c := c) (r := r) hw hl.neverCrashes.2 hs' hss'
          obtain ⟨hothers, hcatalog⟩ := hwalks.agree hl hn (.refl n c) rfl
            (fun _ => named_of_mem_stops hv hss)
            (fun dir id hmem hne _ => seenAlike_beside hhome hagree
              (isContainerDirectory_of_mem_stops hv hsub hss hmem) hne id) hwalks'
          exact ⟨_, _, hreport, hreport', reportsAgreeOff_report hothers, hcatalog⟩

/-- The tree with two containers, one of which has been spoiled: the descriptor of container 6 is no text. -/
def spoiled : Disk :=
  Disk.stocked.insert ["6.container", "metadata", "6", "g", "current", "c", "v"] (.file .ofFile [255])

theorem isPlain_spoiled : spoiled.IsPlain :=
  ⟨.of_keys (by decide +kernel), Disk.isPlain_stocked.linkFree.insert (by simp)⟩

/-- The trees differ in the directory of container 6 only. -/
theorem alikeOutside_spoiled :
    Disk.stocked.AlikeOutside spoiled ["6", "g", "current", "c", "v"] :=
  .insert ⟨.ofDirectory, by decide⟩ ⟨["6.container", "metadata"], rfl⟩ (by decide) _

theorem agreeOutside_spoiled :
    Disk.stocked.view.AgreeOutside spoiled.view stocked.root ⟨"/v/c/current/g/6"⟩ := by
  have hreach : Disk.stocked.reach ⟨"/v"⟩ = .ok ["v"] := by decide +kernel
  have hreach' : spoiled.reach ⟨"/v"⟩ = .ok ["v"] := by decide +kernel
  exact Disk.AlikeOutside.agreeOutside ["6", "g", "current", "c"] alikeOutside_spoiled
    Disk.isPlain_stocked.linkFree isPlain_spoiled.linkFree hreach hreach' (by decide)

theorem isContainerDirectory_spoiled :
    Layout.IsContainerDirectory stocked.root ⟨"/v/c/current/g/6"⟩ :=
  ⟨"c", "g", "6", by decide, by decide, by decide, by decide⟩

/-- A scan of the spoiled tree does not load container 6. -/
theorem not_loaded_spoiled {report : ScanReport}
    (hreport : (run { stocked with view := spoiled.view } .empty .empty).report = some report) :
    6 ∉ report.loaded := by
  have hprocessed : processed { stocked with view := spoiled.view } =
      [(⟨"/v/c/current/g/5"⟩, 5), (⟨"/v/c/current/g/6"⟩, 6)] :=
    (processed_congr Disk.isPlain_stocked.tree.wellNamed isContainerDirectory_spoiled
      agreeOutside_spoiled (by decide +kernel) (by decide +kernel)).trans processed_stocked
  obtain ⟨report', hreport', -, hserves⟩ := exists_serves { stocked with view := spoiled.view } .empty
    .empty isPlain_spoiled.tree.wellNamed StructureCheck.neverCrashes_indexFile
  obtain rfl := Option.some.inj (hreport'.symm.trans hreport)
  cases hserves 6 with
  | taken _ _ hloaded => exact hloaded
  | vacant _ _ _ hloaded => exact hloaded
  | @first before after dir x _ hsplit _ hx =>
      -- the directory would have a descriptor that can be read
      have hmem : (dir, 6) ∈ processed { stocked with view := spoiled.view } := by simp [hsplit]
      rw [hprocessed] at hmem
      obtain rfl : dir = ⟨"/v/c/current/g/6"⟩ := by simpa using hmem
      obtain ⟨d, settings, ht, -⟩ := hx
      have hnone : (Descriptor.load spoiled.view
          ⟨"/v/c/current/g/6/metadata/6.container"⟩).toOption = none := by decide +kernel
      have hsome := congrArg Except.toOption ht.parsed.load
      cases hnone.symm.trans hsome

/-- That container 6 is spoiled makes a difference to it, and none to container 5, which is loaded from both
trees. -/
theorem run_isolates_sample :
    Layout.IsContainerDirectory stocked.root ⟨"/v/c/current/g/6"⟩ ∧
    Disk.stocked.view.AgreeOutside spoiled.view stocked.root ⟨"/v/c/current/g/6"⟩ ∧
    ∃ report report', (stocked.run .empty .empty).report = some report ∧
      (run { stocked with view := spoiled.view } .empty .empty).report = some report' ∧
      ReportsAgreeOff 6 report report' ∧ 5 ∈ report.loaded ∧ 5 ∈ report'.loaded ∧
      6 ∈ report.loaded ∧ 6 ∉ report'.loaded := by
  obtain ⟨report, report', hreport, hreport', hsame, -⟩ :=
    run_isolates stocked spoiled.view .empty .empty Disk.isPlain_stocked.tree.wellNamed
      isPlain_spoiled.tree.wellNamed rfl isContainerDirectory_spoiled (n := 6) (by decide +kernel)
      (by decide +kernel) (by decide +kernel) agreeOutside_spoiled
  have hfive := (loads_stocked (.inl rfl) rfl .empty hreport).1
  have hfive' : 5 ∈ report'.loaded.filter (· ≠ 6) := by
    rw [← hsame.loaded]
    exact List.mem_filter.mpr ⟨hfive, by decide⟩
  exact ⟨isContainerDirectory_spoiled, agreeOutside_spoiled, report, report', hreport, hreport', hsame,
    hfive, (List.mem_filter.mp hfive').1, (loads_stocked (.inr rfl) rfl .empty hreport).1,
    not_loaded_spoiled hreport'⟩

end Scan

end StorageNode
