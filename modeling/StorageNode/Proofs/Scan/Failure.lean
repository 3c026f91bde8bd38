import StorageNode.Proofs.Registry
import StorageNode.Proofs.Scan

/-!
# Volumes that fail

A volume fails for what is in its root and for nothing else: the root cannot be listed, or it does not hold
exactly one directory (`Scan.Faults`). Then nothing else of the volume is looked at, and all that a scan
does is to fail the one volume with the root. Whatever is found further down, it fails no volume.

`Scan.run_fails` says so of every scan whose check comes to a verdict.
-/

namespace StorageNode

/-- There are as many sub-directories as entries that are directories. -/
theorem DiskView.Subdirectories.length_eq {v : DiskView} {dir : FilePath} {ds : List FilePath}
    {all : List String} (h : v.Subdirectories dir ds) (hlist : v.list dir = .ok all) :
    ds.length = all.countP fun n => v.isDirectory (dir / n) := by
  obtain ⟨names, hnames, rfl⟩ := h
  obtain ⟨all', hall, hperm⟩ := hnames.listed
  obtain rfl : all = all' := Except.ok.inj (hlist.symm.trans hall)
  rw [List.length_map, hperm.length_eq, List.countP_eq_length_filter]

namespace Scan

/-! ## What is wrong with a root -/

/-- **What is wrong with the root of a volume.** If there are several directories, all of them are told, in
byte order of their names. -/
inductive Faults (v : DiskView) (root : FilePath) : VolumeFault → Prop
  | unreadable {e : DiskError} (h : v.list root = .error e) : Faults v root (.unreadable root e)
  | noCluster (h : v.Subdirectories root []) : Faults v root (.noCluster root)
  | manyClusters {ds : List FilePath} (h : v.Subdirectories root ds) (hmany : 2 ≤ ds.length) :
      Faults v root (.manyClusters root ds)

/-- The root of a volume cannot be listed, or the number of its entries that are directories is not one. -/
def AtFault (v : DiskView) (root : FilePath) : Prop :=
  (∃ e, v.list root = .error e) ∨
    ∃ names, v.list root = .ok names ∧ names.countP (fun n => v.isDirectory (root / n)) ≠ 1

/-- A scan goes no further than a root that something is wrong with. -/
theorem cluster_eq_error_iff {s : Scan} {fault : VolumeFault} :
    s.cluster = .error fault ↔ Faults s.view s.root fault := by
  constructor
  · intro h
    unfold cluster at h
    split at h
    · next e hsub =>
        cases h
        exact .unreadable (DiskView.subdirectories_eq_error_iff.mp hsub)
    · next hsub =>
        cases h
        exact .noCluster (DiskView.subdirectories_eq_ok_iff.mp hsub)
    · cases h
    · next ds hnone hone hsub =>
        cases h
        refine .manyClusters (DiskView.subdirectories_eq_ok_iff.mp hsub) ?_
        rcases ds with _ | ⟨d, _ | ⟨d', ds⟩⟩
        · exact absurd rfl hnone
        · exact absurd rfl (hone d)
        · exact Nat.le_add_left 2 _
  · intro h
    cases h with
    | unreadable h => rw [cluster, DiskView.subdirectories_eq_error_iff.mpr h]
    | noCluster h => rw [cluster, DiskView.subdirectories_eq_ok_iff.mpr h]
    | @manyClusters ds h hmany =>
        rcases ds with _ | ⟨d, _ | ⟨d', ds⟩⟩
        · simp at hmany
        · simp at hmany
        · rw [cluster, DiskView.subdirectories_eq_ok_iff.mpr h]

theorem exists_faults_iff {v : DiskView} {root : FilePath} :
    (∃ fault, Faults v root fault) ↔ AtFault v root := by
  cases hlist : v.list root with
  | error e => exact iff_of_true ⟨_, .unreadable hlist⟩ (.inl ⟨e, hlist⟩)
  | ok names =>
      obtain ⟨ds, hds⟩ : ∃ ds, v.Subdirectories root ds :=
        ⟨_, _, DiskView.subdirectoryNames_mergeSort hlist, rfl⟩
      have hlength := hds.length_eq hlist
      constructor
      · rintro ⟨fault, h⟩
        refine .inr ⟨names, hlist, ?_⟩
        cases h with
        | unreadable h => simp [hlist] at h
        | noCluster h =>
            rw [← h.length_eq hlist]
            simp
        | manyClusters h hmany =>
            rw [← h.length_eq hlist]
            omega
      · rintro (⟨e, h⟩ | ⟨names', h, hcount⟩)
        · simp [hlist] at h
        · obtain rfl : names = names' := Except.ok.inj (hlist.symm.trans h)
          rw [← hlength] at hcount
          rcases ds with _ | ⟨d, _ | ⟨d', ds⟩⟩
          · exact ⟨_, .noCluster hds⟩
          · exact absurd rfl hcount
          · exact ⟨_, .manyClusters hds (Nat.le_add_left 2 _)⟩

/-! ## Scans that come to an end -/

/-- With a check that comes to a verdict, no visit crashes. -/
theorem visit_ne_crashed {l : Loading} (hcheck : l.check.NeverCrashes) (c : Catalog) (stop : Stop) :
    (visit l c stop).1 ≠ .crashed := by
  cases stop with
  | unreadableGroup dir cause => exact Finding.noConfusion
  | candidate dir =>
      cases hid : containerId? dir with
      | none =>
          rw [visit_malformed hid]
          exact Finding.noConfusion
      | some id =>
          rw [(visit_candidate hid c).1]
          exact (finding_of_ne_crashed (Loading.attempt_ne_crashed hcheck c id dir) id dir).2

theorem crashed_not_mem_visitAll {l : Loading} (hcheck : l.check.NeverCrashes) (c : Catalog)
    (ss : List Stop) : .crashed ∉ (visitAll l c ss).1 := by
  induction ss generalizing c with
  | nil => exact List.not_mem_nil
  | cons stop ss ih =>
      have hvisit := (visit_ne_crashed hcheck c stop).symm
      cases hlast : (visit l c stop).1.isLast with
      | true =>
          rw [visitAll_of_last ss hlast]
          exact List.not_mem_cons_of_ne_of_not_mem hvisit List.not_mem_nil
      | false =>
          rw [visitAll_of_not_last ss hlast]
          exact List.not_mem_cons_of_ne_of_not_mem hvisit (ih _)

/-- A scan that finds its cluster has a report in which the volume has not failed. -/
theorem run_of_cluster {s : Scan} {cluster : FilePath} (hcluster : s.cluster = .ok cluster)
    (hcheck : s.check.NeverCrashes) (c : Catalog) (r : Registry) :
    (s.run c r).registry = r ∧
      ∃ report, (s.run c r).report = some report ∧ report.failure = none := by
  cases hstops : stops s.view (cluster / Layout.currentName) with
  | error e =>
      rw [run_of_unreadable hcluster hstops]
      exact ⟨rfl, _, rfl, rfl⟩
  | ok ss =>
      rw [run_of_stops hcluster hstops (crashed_not_mem_visitAll hcheck c ss)]
      exact ⟨rfl, _, rfl, rfl⟩

/-! ## The theorem -/

/-- **A volume fails for what is in its root.** The report of a scan tells of a failure if and only if the
root cannot be listed or the number of its entries that are directories is not one, and it tells of what is
wrong there. Then nothing is listed as loaded or as skipped, no directory has stopped the walk, the catalog
is as before, and in the registry the one volume with the root, if it is there, has failed. Otherwise the
registry is as before. -/
theorem run_fails (s : Scan) (c : Catalog) {roots : List FilePath} {r : Registry}
    (hr : Registry.Reached roots r) (hcheck : s.check.NeverCrashes) :
    ∃ report, (s.run c r).report = some report ∧
      (report.failed = true ↔ AtFault s.view s.root) ∧
      (∀ fault, report.failure = some fault ↔ Faults s.view s.root fault) ∧
      (report.failed = true →
        report.loaded = [] ∧ report.skipped = [] ∧ report.aborted = none ∧
        (s.run c r).catalog = c ∧ (s.run c r).registry = r.failing (·.same s.root) ∧
        ∀ u ∈ r.volumes, ∀ v ∈ r.volumes,
          u.root.same s.root = true → v.root.same s.root = true → u = v) ∧
      (report.failed = false → (s.run c r).registry = r) := by
  have hone : ∀ u ∈ r.volumes, ∀ v ∈ r.volumes,
      u.root.same s.root = true → v.root.same s.root = true → u = v := by
    intro u hu v hv husame hvsame
    refine hr.orderly.eq_of_root hu hv (FilePath.same_iff.mpr ?_)
    exact (FilePath.same_iff.mp husame).trans (FilePath.same_iff.mp hvsame).symm
  rw [← exists_faults_iff]
  simp only [← cluster_eq_error_iff]
  cases hcluster : s.cluster with
  | error fault =>
      rw [run_of_fault hcluster]
      refine ⟨_, rfl, iff_of_true rfl ⟨fault, rfl⟩, fun fault' => ?_,
        fun _ => ⟨rfl, rfl, rfl, rfl, hr.orderly.fail_eq s.root, hone⟩, Bool.noConfusion⟩
      simp
  | ok cluster =>
      obtain ⟨hregistry, report, hreport, hfailure⟩ := run_of_cluster hcluster hcheck c r
      have hfailed : report.failed = false := by rw [ScanReport.failed, hfailure]; rfl
      refine ⟨report, hreport, ?_, fun fault => ?_, fun h => ?_, fun _ => hregistry⟩
      · simp [hfailed]
      · simp [hfailure]
      · rw [hfailed] at h
        cases h

/-- A group of the sample volume holds two directories, so that it is no root of a volume. -/
theorem run_fails_sample :
    let s : Scan := { sample with root := ⟨"/v/c/current/b"⟩ }
    let r := (Registry.empty.register s.root).2.1
    Registry.Reached [s.root] r ∧ s.check.NeverCrashes ∧
    ∃ report, (s.run .empty r).report = some report ∧
      report.failure = some
        (.manyClusters s.root [⟨"/v/c/current/b/7"⟩, ⟨"/v/c/current/b/x"⟩]) ∧
      report.loaded = [] ∧ (s.run .empty r).registry = ⟨[⟨0, s.root, .failed⟩]⟩ := by
  intro s r
  have hr : Registry.Reached [s.root] r := .register .empty s.root
  have hcheck : s.check.NeverCrashes := StructureCheck.neverCrashes_indexFile
  obtain ⟨report, hreport, -, hfailure, hfailed, -⟩ := run_fails s .empty hr hcheck
  have htwo : Faults s.view s.root _ :=
    .manyClusters (DiskView.subdirectories_eq_ok_iff.mp subdirectories_group_sample) (Nat.le_refl 2)
  have hfault := (hfailure _).mpr htwo
  obtain ⟨hloaded, -, -, -, hregistry, -⟩ := hfailed (by rw [ScanReport.failed, hfault]; rfl)
  have hvolume : r.failing (·.same s.root) = ⟨[⟨0, s.root, .failed⟩]⟩ := by
    simp [r, Registry.register, Registry.find?, Registry.empty, Registry.nextId, Registry.failing,
      Volume.failing, FilePath.same_self]
  exact ⟨hr, hcheck, report, hreport, hfault, hloaded, hregistry.trans hvolume⟩

end Scan

end StorageNode
