import StorageNode.Proofs.Scan.Failure
import StorageNode.Proofs.Scan.Firsts
import StorageNode.Proofs.Scan.Insertions

/-!
# Scanning a volume again

A second scan starts from what the first one has left. Whatever the first one loaded is in the catalog by
then, and a number that was taken is still taken by the same container, so that every attempt to load ends
without a change (`Loading.attempt_again`): one that was refused is refused for the same cause, and one that
succeeded is refused as a duplicate on its own volume.

`Scan.run_again` puts this together for the directories of a whole scan, in their order.
-/

namespace StorageNode

/-- A volume that has failed is not failed again. -/
theorem Registry.fail_again (r : Registry) (root : FilePath) :
    ((r.fail root).1.fail root).1 = (r.fail root).1 := by
  have hmarked : ∀ vs : List Volume, markFailed root (markFailed root vs) = markFailed root vs := by
    intro vs
    induction vs with
    | nil => rfl
    | cons v vs ih => cases hv : v.root.same root <;> simp [markFailed, hv, ih]
  simp only [fail_eq, hmarked]

/-- **An attempt to load that is made again**, from a catalog that has what the first one has left: it ends
for the same cause, or finds what the first one has loaded. -/
theorem Loading.attempt_again {l : Loading} (hcheck : l.check.NeverCrashes) {c k : Catalog}
    {id : ContainerId} {dir : FilePath} (hk : (l.attempt c id dir).2.Extends k) :
    (∃ cause, (l.attempt c id dir).1 = .skipped cause ∧ l.attempt k id dir = (.skipped cause, k)) ∨
      ∃ x, (l.attempt c id dir).1 = .loaded x ∧
        l.attempt k id dir = (.skipped (.duplicate ⟨id, l.volume, l.volume⟩), k) := by
  simp only [attempt] at hk ⊢
  cases hexamine : l.examine id dir with
  | crashed => exact absurd hexamine (examine_ne_crashed hcheck id dir)
  | skipped cause => exact .inl ⟨cause, rfl, rfl⟩
  | loaded x =>
      obtain ⟨rfl, hvolume⟩ := loaded_of_examine hexamine
      rw [hexamine] at hk
      cases hold : c.get? x.id with
      | some old =>
          rw [Catalog.admit_of_some hold] at hk ⊢
          rw [Catalog.admit_of_some (hk x.id old hold)]
          exact .inl ⟨_, rfl, rfl⟩
      | none =>
          obtain ⟨c', htakes, hg⟩ := Catalog.admit_of_none hold
          rw [htakes] at hk ⊢
          rw [Catalog.admit_of_some (hk x.id x hg.get?_self), hvolume]
          exact .inr ⟨x, rfl, rfl⟩

namespace Scan

/-! ## The visits of a second walk -/

/-- What is said of a directory when the volume is scanned again: a container that has been loaded is a
duplicate on its own volume. -/
def Account.again (v : VolumeId) (a : Account) : SkippedContainer :=
  ⟨a.id, a.dir, a.cause.getD (.duplicate ⟨a.id, v, v⟩)⟩

/-- **What is found by a walk and by the one that comes after it**, of the directories that are accounted
for. -/
structure Again (v : VolumeId) (as : List Account) (fs gs : List Finding) : Prop where
  loaded : fs.filterMap Finding.loaded? = as.filterMap Account.loaded?
  skipped : fs.filterMap Finding.skipped? = as.filterMap Account.skipped?
  malformed : gs.findSome? Finding.malformed? = fs.findSome? Finding.malformed?
  nothing_loaded : gs.filterMap Finding.loaded? = []
  repeated : gs.filterMap Finding.skipped? = as.map (·.again v)

/-- What is not about a directory with a number is found by both. -/
theorem Again.cons_same {v : VolumeId} {as : List Account} {fs gs : List Finding} {f : Finding}
    (h : Again v as fs gs) (hloaded : f.loaded? = none) (hskipped : f.skipped? = none) :
    Again v as (f :: fs) (f :: gs) where
  loaded := by rw [List.filterMap_cons_none hloaded, h.loaded]
  skipped := by rw [List.filterMap_cons_none hskipped, h.skipped]
  malformed := by rw [List.findSome?_cons, List.findSome?_cons, h.malformed]
  nothing_loaded := by rw [List.filterMap_cons_none hloaded, h.nothing_loaded]
  repeated := by rw [List.filterMap_cons_none hskipped, h.repeated]

/-- A directory with a number is found twice. -/
theorem Again.cons {l : Loading} (hcheck : l.check.NeverCrashes) {c k : Catalog} {id : ContainerId}
    {dir : FilePath} (hk : (l.attempt c id dir).2.Extends k) {as : List Account}
    {fs gs : List Finding} (h : Again l.volume as fs gs) :
    ∃ cause, Again l.volume (⟨dir, id, cause⟩ :: as) (finding id dir (l.attempt c id dir).1 :: fs)
      (finding id dir (l.attempt k id dir).1 :: gs) := by
  rcases Loading.attempt_again hcheck hk with ⟨cause, hfirst, hsecond⟩ | ⟨x, hfirst, hsecond⟩
  · refine ⟨some cause, ?_⟩
    rw [hfirst, hsecond]
    exact ⟨h.loaded, congrArg _ h.skipped, h.malformed, h.nothing_loaded, congrArg _ h.repeated⟩
  · refine ⟨none, ?_⟩
    rw [hfirst, hsecond]
    exact ⟨congrArg _ h.loaded, h.skipped, h.malformed, h.nothing_loaded, congrArg _ h.repeated⟩

/-- The walk goes on behind a directory with a number. -/
theorem isLast_visit {l : Loading} (hcheck : l.check.NeverCrashes) {dir : FilePath} {id : ContainerId}
    (hid : containerId? dir = some id) (c : Catalog) : (visit l c (.candidate dir)).1.isLast = false := by
  rw [(visit_candidate hid c).1]
  exact (finding_of_ne_crashed (Loading.attempt_ne_crashed hcheck c id dir) id dir).1

/-- **A second walk repeats the first one**, and leaves the catalog as it is. -/
theorem visitAll_again {l : Loading} (hcheck : l.check.NeverCrashes) (ss : List Stop) {c k : Catalog}
    (hk : (visitAll l c ss).2.1.Extends k) :
    (visitAll l k ss).2.1 = k ∧ ∃ as : List Account, as.map (fun a => (a.dir, a.id)) = offers ss ∧
      Again l.volume as (visitAll l c ss).1 (visitAll l k ss).1 := by
  induction ss generalizing c with
  | nil => exact ⟨rfl, [], rfl, rfl, rfl, rfl, rfl, rfl⟩
  | cons stop ss ih =>
      cases stop with
      | unreadableGroup dir cause =>
          rw [visitAll_of_not_last ss rfl] at hk ⊢
          rw [visitAll_of_not_last ss rfl]
          obtain ⟨hsame, as, hoffers, hagain⟩ := ih hk
          exact ⟨hsame, as, hoffers, hagain.cons_same rfl rfl⟩
      | candidate dir =>
          cases hid : containerId? dir with
          | none =>
              have hvisit := visit_malformed (l := l) hid
              rw [visitAll_of_last ss (by rw [hvisit]; rfl), visitAll_of_last ss (by rw [hvisit]; rfl),
                hvisit, hvisit]
              exact ⟨rfl, [], (offers_malformed hid ss).symm, rfl, rfl, rfl, rfl, rfl⟩
          | some id =>
              obtain ⟨hfirst, hbehind⟩ := visit_candidate (l := l) hid c
              obtain ⟨hsecond, hkept⟩ := visit_candidate (l := l) hid k
              rw [visitAll_of_not_last ss (isLast_visit hcheck hid c), hfirst, hbehind] at hk ⊢
              rw [visitAll_of_not_last ss (isLast_visit hcheck hid k), hsecond, hkept]
              -- what the first visit leaves is still there at the end of the walk
              have hlater : (l.attempt c id dir).2.Extends k :=
                (insertsAll_visitAll l _ ss).keeps.trans hk
              have hsame : (l.attempt k id dir).2 = k := by
                rcases Loading.attempt_again hcheck hlater with ⟨_, -, heq⟩ | ⟨_, -, heq⟩ <;> rw [heq]
              rw [hsame]
              obtain ⟨hend, as, hoffers, hagain⟩ := ih hk
              obtain ⟨cause, hcons⟩ := hagain.cons hcheck hlater
              refine ⟨hend, ⟨dir, id, cause⟩ :: as, ?_, hcons⟩
              rw [List.map_cons, hoffers, offers_candidate hid]

/-! ## The second scan -/

/-- **Scanning a volume again changes nothing.** A second scan leaves catalog and registry as the first one
has left them, fails as it has failed and stops where it has stopped. It loads nothing. Of the directories
that a scan of the volume processes, in their order, it skips those that have been skipped for the same
causes, and those that have been loaded as duplicates on their own volume. -/
theorem run_again (s : Scan) (c : Catalog) (r : Registry) (hcheck : s.check.NeverCrashes) :
    let first := s.run c r
    let second := s.run first.catalog first.registry
    second.catalog = first.catalog ∧ second.registry = first.registry ∧
    ∃ report report', ∃ as : List Account, first.report = some report ∧ second.report = some report' ∧
      report'.failure = report.failure ∧ report'.aborted = report.aborted ∧
      Processed s.view s.root (as.map fun a => (a.dir, a.id)) ∧
      report.loaded = as.filterMap Account.loaded? ∧
      report.skipped = as.filterMap Account.skipped? ∧
      report'.loaded = [] ∧ report'.skipped = as.map (·.again s.volume) := by
  intro first second
  have hprocessed := processed_processed s
  cases hcluster : s.cluster with
  | error fault =>
      have hfirst : first = _ := run_of_fault hcluster
      have hsecond : second = _ := run_of_fault hcluster
      rw [processed_of_fault hcluster] at hprocessed
      rw [hsecond, hfirst]
      exact ⟨rfl, Registry.fail_again r s.root, _, _, [], rfl, rfl, rfl, rfl, hprocessed, rfl, rfl,
        rfl, rfl⟩
  | ok cluster =>
      cases hstops : stops s.view (cluster / Layout.currentName) with
      | error e =>
          have hfirst : first = _ := run_of_unreadable hcluster hstops
          have hsecond : second = _ := run_of_unreadable hcluster hstops
          rw [processed_of_unreadable hcluster hstops] at hprocessed
          rw [hsecond, hfirst]
          exact ⟨rfl, rfl, _, _, [], rfl, rfl, rfl, rfl, hprocessed, rfl, rfl, rfl, rfl⟩
      | ok ss =>
          have hfirst : first = _ := run_of_stops hcluster hstops (crashed_not_mem_visitAll hcheck c ss)
          have hsecond : second = _ := run_of_stops hcluster hstops (crashed_not_mem_visitAll hcheck _ ss)
          obtain ⟨hend, as, hoffers, hagain⟩ := visitAll_again hcheck ss
            (.refl (visitAll s.toLoading c ss).2.1)
          rw [processed_of_stops hcluster hstops, ← hoffers] at hprocessed
          rw [hsecond, hfirst]
          exact ⟨hend, rfl, _, _, as, rfl, rfl, rfl, hagain.malformed, hprocessed, hagain.loaded,
            hagain.skipped, hagain.nothing_loaded, hagain.repeated⟩

/-- The first scan of a volume loads its container 5, and the second one refuses it as a duplicate on its own
volume. -/
theorem run_again_sample :
    let first := stocked.run .empty .empty
    let second := stocked.run first.catalog first.registry
    stocked.check.NeverCrashes ∧ second.catalog = first.catalog ∧ second.registry = first.registry ∧
    ∃ report report', first.report = some report ∧ second.report = some report' ∧
      5 ∈ report.loaded ∧ report'.loaded = [] ∧
      ⟨5, ⟨"/v/c/current/g/5"⟩, .duplicate ⟨5, 0, 0⟩⟩ ∈ report'.skipped := by
  intro first second
  have hcheck : stocked.check.NeverCrashes := StructureCheck.neverCrashes_indexFile
  obtain ⟨hcatalog, hregistry, report, report', as, hfirst, hsecond, -, -, hprocessed, hloaded, -,
    hnothing, hskipped⟩ := run_again stocked .empty .empty hcheck
  have hfive := (loads_stocked (.inl rfl) rfl .empty hfirst).1
  refine ⟨hcheck, hcatalog, hregistry, report, report', hfirst, hsecond, hfive, hnothing, ?_⟩
  -- the directory that the first scan has loaded is the one that is named by 5
  rw [hloaded, List.mem_filterMap] at hfive
  obtain ⟨a, ha, haccount⟩ := hfive
  have hmem : (a.dir, a.id) ∈ as.map fun a => (a.dir, a.id) := List.mem_map_of_mem ha
  rw [← processed_iff.mp hprocessed, processed_stocked] at hmem
  obtain ⟨dir, id, cause⟩ := a
  cases cause with
  | some cause => cases haccount
  | none =>
      obtain rfl := Option.some.inj haccount
      obtain rfl : dir = ⟨"/v/c/current/g/5"⟩ := by simpa using hmem
      rw [hskipped]
      exact List.mem_map_of_mem (f := Account.again 0) ha

end Scan

end StorageNode
