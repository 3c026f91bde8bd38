import StorageNode.Proofs.Recovery.Moves
import StorageNode.Proofs.Recovery.Reports
import StorageNode.Proofs.Scan.Crash

/-!
# A crash stays with its volume

A worker that crashes leaves no report, and what it had loaded stays. `Node.crash_contained` says what this
comes to, for a check that crashes on some numbers. Where a scan crashes and what it leaves is told by the
directories alone (`Scan.run_of_hit`). For the rest of a recovery, it is compared with one in which the
check accepts the containers that it crashed on (`StructureCheck.Relents`): the report has the volume among
the crashes in place of the scans, and under all numbers but those of the volume the catalog is the same
(`Node.Contained`), however the workers are interleaved in either of them.

What carries the comparison is that each worker leaves what its scan leaves on its own
(`Node.ends_as_alone`, `Node.workAll_get?`), and that of a check only its verdicts on the directories that
are processed matter (`Scan.run_congr`).
-/

namespace StorageNode

/-! ## Another check -/

/-- Two checks have the same verdict on whatever container with the number lies in a directory. -/
def StructureCheck.Alike (check check' : StructureCheck) (view : DiskView) (dir : FilePath)
    (id : ContainerId) : Prop :=
  ∀ d settings, d.id = id →
    check view d settings (.ofDirectory dir id) = check' view d settings (.ofDirectory dir id)

/-- **The check has become one that accepts the containers of a volume with some numbers**, and has the
verdicts that it had on all other containers of the volumes. -/
structure StructureCheck.Relents (check check' : StructureCheck) (view : DiskView)
    (ids : ContainerId → Prop) (v : Volume) (vs : List Volume) : Prop where
  accepts : ∀ dir id, Scan.Processes view v.root dir id → ids id → ∀ d settings, d.id = id →
    check' view d settings (.ofDirectory dir id) = .accepted
  otherwise : ∀ dir id, Scan.Processes view v.root dir id → ¬ ids id → check.Alike check' view dir id
  others : ∀ w ∈ vs, w ≠ v → ∀ dir id, Scan.Processes view w.root dir id →
    check.Alike check' view dir id

namespace Loading

variable {l : Loading} {check : StructureCheck} {dir : FilePath} {id : ContainerId} {d : Descriptor}
  {settings : ContainerSettings}

/-- What is looked at before the check does not depend on the check. -/
theorem Typed.withCheck (h : l.Typed dir id d settings) :
    ({ l with check := check } : Loading).Typed dir id d settings where
  parsed := ⟨⟨h.parsed.found.metadata, h.parsed.found.descriptor⟩, h.parsed.load, h.parsed.own⟩
  supported := h.supported
  projected := h.projected

/-- **Only its verdicts on the directory matter of a check.** -/
theorem examine_congr {parent : FilePath} {name : String} (hname : FilePath.IsName name)
    (h : l.check.Alike check l.view (parent / name) id) :
    l.examine id (parent / name) =
      ({ l with check := check } : Loading).examine id (parent / name) := by
  by_cases hfound : l.Found (parent / name) id
  · have hfound' : ({ l with check := check } : Loading).Found (parent / name) id :=
      ⟨hfound.metadata, hfound.descriptor⟩
    cases hload : Descriptor.load l.view (parent / name / "metadata" / Layout.descriptorName id) with
    | error e =>
        rw [examine_of_found hfound, examine_of_found hfound']
        simp only [examineFile, hload]
    | ok d =>
        by_cases hown : d.id = id
        · rw [examine_of_parsed hname ⟨hfound, hload, hown⟩,
            examine_of_parsed hname ⟨hfound', hload, hown⟩]
          simp only [validate, fun settings => h d settings hown]
        · rw [examine_of_found hfound, examine_of_found hfound']
          simp only [examineFile, hload, ne_eq, hown, not_false_eq_true, if_true]
  · -- the directory is given up before its descriptor is read
    by_cases hmetadata : l.view.isDirectory (parent / name / "metadata") = true
    · have hdescriptor :
          l.view.isFile (parent / name / "metadata" / Layout.descriptorName id) = false :=
        Bool.eq_false_iff.mpr fun h => hfound ⟨hmetadata, h⟩
      simp [examine, ContainerPaths.ofDirectory, hmetadata, hdescriptor]
    · simp [examine, ContainerPaths.ofDirectory, hmetadata]

end Loading

namespace Scan

variable {l : Loading} {check : StructureCheck}

/-- Only its verdicts on what is visited matter of a check. -/
theorem visitAll_congr : ∀ (ss : List Stop) (c : Catalog), (∀ stop ∈ ss, stop.Named) →
    (∀ p ∈ offers ss, l.check.Alike check l.view p.1 p.2) →
    visitAll l c ss = visitAll { l with check := check } c ss
  | [], _, _, _ => rfl
  | .unreadableGroup dir cause :: ss, c, hnamed, h => by
      have hrest := visitAll_congr ss c (List.forall_mem_cons.mp hnamed).2 h
      rw [visitAll_of_not_last ss rfl, visitAll_of_not_last ss rfl]
      simp only [visit, hrest]
  | .candidate dir :: ss, c, hnamed, h => by
      obtain ⟨⟨parent, name, hname, rfl⟩, hlater⟩ := List.forall_mem_cons.mp hnamed
      cases hid : containerId? (parent / name) with
      | none => simp [visitAll, visit, hid, Finding.isLast]
      | some id =>
          rw [offers_candidate hid] at h
          obtain ⟨hfirst, hothers⟩ := List.forall_mem_cons.mp h
          have hvisit : visit l c (.candidate (parent / name)) =
              visit { l with check := check } c (.candidate (parent / name)) := by
            simp only [visit, hid, Loading.examine_congr hname hfirst]
          have hrest := fun c => visitAll_congr ss c hlater hothers
          simp only [visitAll, hvisit, hrest]

/-- Only its verdicts on what a scan processes matter of a check. -/
theorem run_congr {s : Scan} (hview : s.view.WellNamed)
    (h : ∀ p ∈ s.processed, s.check.Alike check s.view p.1 p.2) (c : Catalog) (r : Registry) :
    s.run c r = ({ s with check := check } : Scan).run c r := by
  have hsame : ({ s with check := check } : Scan).cluster = s.cluster := rfl
  cases hcluster : s.cluster with
  | error fault =>
      rw [run_of_fault hcluster, run_of_fault (hsame.trans hcluster)]
      rfl
  | ok cluster =>
  cases hstops : stops s.view (cluster / Layout.currentName) with
  | error e =>
      rw [run_of_unreadable hcluster hstops, run_of_unreadable (hsame.trans hcluster) hstops]
      rfl
  | ok ss =>
      rw [processed_of_stops hcluster hstops] at h
      have hvisits := visitAll_congr ss c (fun _ => named_of_mem_stops hview hstops) h
      simp only [run, hcluster, hsame, hstops, walk, hvisits]
      rfl

/-- A report is on the volume that is scanned. -/
theorem key_of_run {s : Scan} {c : Catalog} {r : Registry} {rep : ScanReport}
    (h : (s.run c r).report = some rep) : rep.key = (s.volume, s.root) := by
  cases hcluster : s.cluster with
  | error fault =>
      rw [run_of_fault hcluster] at h
      exact Option.some.inj h ▸ rfl
  | ok cluster =>
  cases hstops : stops s.view (cluster / Layout.currentName) with
  | error e =>
      rw [run_of_unreadable hcluster hstops] at h
      exact Option.some.inj h ▸ rfl
  | ok ss =>
      simp only [run, hcluster, hstops, walk] at h
      split at h
      · cases h
      · exact Option.some.inj h ▸ rfl

/-- A scan leaves the containers of other volumes. -/
theorem get?_run_iff {s : Scan} (hview : s.view.WellNamed) (c : Catalog) (r : Registry)
    (id : ContainerId) {x : Container} (hx : x.volume ≠ s.volume) :
    (s.run c r).catalog.get? id = some x ↔ c.get? id = some x := by
  rcases run_gathers hview c r with ⟨-, -, hgathers⟩ | ⟨before, p, behind, -, -, -, -, -, hgathers⟩
  · exact hgathers.get?_iff id hx
  · exact hgathers.get?_iff id hx

end Scan

namespace Node

open Recovering

variable {view : DiskView} {check check' : StructureCheck} {ids : ContainerId → Prop} {n : Node}
  {v w : Volume} {vs : List Volume} {id : ContainerId}

/-! ## The work of one worker -/

/-- Only its verdicts on a volume matter of a check. -/
theorem work_congr (hview : view.WellNamed)
    (h : ∀ dir id, Scan.Processes view w.root dir id → check.Alike check' view dir id) (n : Node) :
    n.work view check w = n.work view check' w := by
  have hrun : n.scan view check w = n.scan view check' w :=
    Scan.run_congr (s := scanning view check w) hview
      (fun p hp => h p.1 p.2 (Scan.processes_iff.mpr hp)) n.catalog n.registry
  simp only [work, hrun]

/-- The volume that a result is on. -/
def WorkerResult.key : WorkerResult → VolumeId × FilePath
  | report r => r.key
  | failure f => f.key

/-- A worker leaves a result on its volume. -/
theorem key_work (n : Node) : (n.work view check w).1.key = w.key := by
  simp only [work]
  cases hreport : (n.scan view check w).report with
  | none => rfl
  | some rep => exact Scan.key_of_run hreport

/-- A volume that is apart from one with a directory has another root. -/
theorem Apart.root_ne (h : Apart view v w) (hid : numbers view v id) : w.root ≠ v.root := fun heq =>
  h id hid (by unfold numbers at hid ⊢; rwa [heq])

/-! ## The work of all workers -/

/-- The scans of other volumes leave what stands under a number. -/
theorem workAll_keeps (h : ∀ w ∈ vs, ¬ numbers view w id) (n : Node) :
    (n.workAll view check vs).2.1.catalog.get? id = n.catalog.get? id := by
  induction vs generalizing n with
  | nil => rfl
  | cons w vs ih =>
      obtain ⟨hw, hvs⟩ := List.forall_mem_cons.mp h
      exact (ih hvs (n.work view check w).2.1).trans ((local_work view check w).keeps n id hw)

/-- What stands under a number of a volume in the end is what its scan leaves there on its own. -/
theorem workAll_get? (h : vs.Pairwise (Apart view)) (hv : v ∈ vs) (hid : numbers view v id)
    (n : Node) : (n.workAll view check vs).2.1.catalog.get? id =
      (n.scan view check v).catalog.get? id := by
  induction vs generalizing n with
  | nil => exact absurd hv List.not_mem_nil
  | cons w vs ih =>
      obtain ⟨hw, hvs⟩ := List.pairwise_cons.mp h
      rcases List.mem_cons.mp hv with rfl | hv
      · exact workAll_keeps (fun u hu => hw u hu id hid) (n.work view check v).2.1
      · have hagree : (n.work view check w).2.1.catalog.AgreeOn (numbers view v) n.catalog :=
          (local_work view check w).agreeOn (hw v hv).symm n
        exact (ih hvs hv (n.work view check w).2.1).trans
          ((local_work view check v).agree hagree id hid)

/-- An interleaving that has come to its end leaves what each scan leaves on its own. -/
theorem ends_as_alone (hapart : n.registry.healthy.Pairwise (Apart view)) {r : Recovering}
    (hr : Interleaving view check (.start n) r) (hended : r.Ended) :
    r.node = (n.workAll view check n.registry.healthy).2.1 ∧
      r.report = collect (n.registry.healthy.map fun w => (n.work view check w).1) := by
  have hstart : Orderly view check (start n).workers := by
    refine ⟨fun w hw => ?_, by simpa [start, Function.comp_def] using hapart⟩
    obtain ⟨v, -, rfl⟩ := List.mem_map.mp hw
    exact within_ready v
  obtain ⟨hsame, -⟩ := finishAll_interleaving hr hstart
  rw [finishAll_done hended, start, finishAll_ready, workAll_results hapart] at hsame
  obtain ⟨hresults, hnode⟩ := Prod.mk.inj hsame
  exact ⟨hnode, congrArg collect hresults⟩

/-! ## Two recoveries -/

/-- **One report is the other but for a volume**: it lists the volume as crashed and not as scanned, the
other one as scanned and not as crashed, and all else is the same in both. -/
structure Loses (v : Volume) (report report' : RecoveryReport) : Prop where
  volumes : ∃ own before behind, own.key = v.key ∧ report'.volumes = before ++ own :: behind ∧
    report.volumes = before ++ behind ∧ ∀ rep ∈ before ++ behind, rep.key ≠ v.key
  failures : ∃ before behind,
    report.workerFailures = before ++ ⟨v.id, v.root, "scan worker panicked"⟩ :: behind ∧
      report'.workerFailures = before ++ behind ∧ ∀ f ∈ before ++ behind, f.key ≠ v.key

/-- **A crash stays with its volume**: what is left of a recovery in which a worker crashes, beside one in
which it does not. -/
structure Contained (view : DiskView) (check : StructureCheck) (n : Node) (v : Volume)
    (r r' : Recovering) : Prop where
  report : Loses v r.report r'.report
  /-- Under its own numbers stands what the scan of the volume leaves where it crashes. -/
  own : ∀ id, numbers view v id →
    r.node.catalog.get? id = (n.scan view check v).catalog.get? id
  others : ∀ id, ¬ numbers view v id → r.node.catalog.get? id = r'.node.catalog.get? id
  /-- The containers of other volumes are the same. -/
  entries : ∀ id x, x.volume ≠ v.id →
    (r.node.catalog.get? id = some x ↔ r'.node.catalog.get? id = some x)

theorem mem_volumes_collect {rs : List WorkerResult} {rep : ScanReport} :
    rep ∈ (collect rs).volumes ↔ .report rep ∈ rs := by
  simp only [collect, List.mem_filterMap]
  constructor
  · rintro ⟨_ | _, hq, heq⟩
    · exact Option.some.inj heq ▸ hq
    · cases heq
  · exact fun h => ⟨_, h, rfl⟩

theorem mem_workerFailures_collect {rs : List WorkerResult} {f : WorkerFailure} :
    f ∈ (collect rs).workerFailures ↔ .failure f ∈ rs := by
  simp only [collect, List.mem_filterMap]
  constructor
  · rintro ⟨_ | _, hq, heq⟩
    · cases heq
    · exact Option.some.inj heq ▸ hq
  · exact fun h => ⟨_, h, rfl⟩

/-- The report that results make loses a volume with its result. -/
theorem loses_collect {before behind : List WorkerResult} {own : ScanReport} (hown : own.key = v.key)
    (h : ∀ q ∈ before ++ behind, q.key ≠ v.key) :
    Loses v (collect (before ++ .failure ⟨v.id, v.root, "scan worker panicked"⟩ :: behind))
      (collect (before ++ .report own :: behind)) where
  volumes := by
    refine ⟨own, (collect before).volumes, (collect behind).volumes, hown, by simp [collect],
      by simp [collect], fun rep hrep => ?_⟩
    simp only [List.mem_append, mem_volumes_collect] at hrep
    exact h _ (List.mem_append.mpr hrep)
  failures := by
    refine ⟨(collect before).workerFailures, (collect behind).workerFailures, by simp [collect],
      by simp [collect], fun f hf => ?_⟩
    simp only [List.mem_append, mem_workerFailures_collect] at hf
    exact h _ (List.mem_append.mpr hf)

section

variable (hview : view.WellNamed) (hcheck : check.CrashesOn ids)
  (hrelents : check.Relents check' view ids v n.registry.healthy)

include hview hcheck

/-- The worker of a volume on which a directory is hit crashes. -/
theorem work_of_hit {p : FilePath × ContainerId} (hp : Scan.Processes view v.root p.1 p.2)
    (hhit : (loading view check v).Hits ids p) (n : Node) :
    (n.work view check v).1 = .failure ⟨v.id, v.root, "scan worker panicked"⟩ := by
  have hcrash : (n.scan view check v).report = none :=
    (Scan.report_eq_none_iff (s := scanning view check v) hview hcheck n.catalog n.registry).mpr
      ⟨p, Scan.processes_iff.mp hp, hhit⟩
  simp only [work, hcrash]

include hrelents

/-- The worker of the volume reports if the check relents. -/
theorem work_of_relents (m : Node) :
    ∃ own, own.key = v.key ∧ (m.work view check' v).1 = .report own := by
  rcases Scan.run_gathers (s := scanning view check' v) hview m.catalog m.registry with
    ⟨-, ⟨own, hown⟩, -⟩ | ⟨before, ⟨dir, id⟩, behind, hsplit, -, ⟨d, settings, ht, hcrash⟩, -⟩
  · refine ⟨own, Scan.key_of_run hown, ?_⟩
    simp only [work, scan, hown]
  · have hprocesses : Scan.Processes view v.root dir id :=
      Scan.processes_iff.mpr (hsplit ▸ List.mem_append_right _ List.mem_cons_self)
    have hown : d.id = id := ht.parsed.own
    by_cases hid : ids id
    · have haccepts := hrelents.accepts dir id hprocesses hid d settings hown
      cases haccepts.symm.trans hcrash
    · have halike := hrelents.otherwise dir id hprocesses hid d settings hown
      exact absurd (hown ▸ (hcheck _ _ _ _).mp (halike.trans hcrash)) hid

omit hcheck

/-- The workers of other volumes do the same if the check relents. -/
theorem work_of_other (hw : w ∈ n.registry.healthy) (hne : w ≠ v) (m : Node) :
    m.work view check w = m.work view check' w := work_congr hview (hrelents.others w hw hne) m

/-- Under the numbers of other volumes, and of none, stands the same in the end. -/
theorem workAll_of_other (hapart : n.registry.healthy.Pairwise (Apart view))
    (hid : ¬ numbers view v id) :
    (n.workAll view check n.registry.healthy).2.1.catalog.get? id =
      (n.workAll view check' n.registry.healthy).2.1.catalog.get? id := by
  by_cases hnumber : ∃ w ∈ n.registry.healthy, numbers view w id
  · obtain ⟨w, hw, hidw⟩ := hnumber
    have hne : w ≠ v := fun heq => hid (heq ▸ hidw)
    have hwork := work_of_other hview hrelents hw hne n
    rw [workAll_get? hapart hw hidw, workAll_get? hapart hw hidw]
    exact congrArg (fun o => o.2.1.catalog.get? id) hwork
  · have hnone : ∀ w ∈ n.registry.healthy, ¬ numbers view w id := fun w hw hidw =>
      hnumber ⟨w, hw, hidw⟩
    rw [workAll_keeps hnone, workAll_keeps hnone]

end

/-- The other volumes have other roots. -/
theorem root_ne_of_split {before behind : List Volume} (hsplit : vs = before ++ v :: behind)
    (hapart : vs.Pairwise (Apart view)) (hid : numbers view v id) :
    ∀ w ∈ before ++ behind, w ∈ vs ∧ w.root ≠ v.root := by
  intro w hw
  rw [hsplit, List.pairwise_middle fun h => h.symm, List.pairwise_cons] at hapart
  refine ⟨?_, (hapart.1 w hw).root_ne hid⟩
  rw [hsplit]
  simp only [List.mem_append, List.mem_cons] at hw ⊢
  tauto

section

variable (hview : view.WellNamed) (hcheck : check.CrashesOn ids) (hv : v ∈ n.registry.healthy)
  (hapart : n.registry.healthy.Pairwise (Apart view)) {p : FilePath × ContainerId}
  (hp : Scan.Processes view v.root p.1 p.2) (hhit : (loading view check v).Hits ids p)
  (hrelents : check.Relents check' view ids v n.registry.healthy)

include hview hcheck hv hapart hp hhit hrelents

/-- The report loses the volume. -/
theorem loses_of_hit : Loses v (collect (n.registry.healthy.map fun w => (n.work view check w).1))
    (collect (n.registry.healthy.map fun w => (n.work view check' w).1)) := by
  obtain ⟨own, hkey, hown⟩ := work_of_relents hview hcheck hrelents n
  obtain ⟨before, behind, hsplit⟩ := List.append_of_mem hv
  have hrest := root_ne_of_split hsplit hapart ⟨p.1, hp⟩
  have hsame : ∀ w ∈ before ++ behind, (n.work view check' w).1 = (n.work view check w).1 := by
    intro w hw
    obtain ⟨hmem, hroot⟩ := hrest w hw
    rw [work_of_other hview hrelents hmem (fun heq => hroot (heq ▸ rfl)) n]
  obtain ⟨hbefore, hbehind⟩ := List.forall_mem_append.mp hsame
  rw [hsplit, List.map_append, List.map_cons, List.map_append, List.map_cons,
    List.map_congr_left hbefore, List.map_congr_left hbehind, hown,
    work_of_hit hview hcheck hp hhit n]
  refine loses_collect hkey fun q hq => ?_
  rw [← List.map_append] at hq
  obtain ⟨w, hw, rfl⟩ := List.mem_map.mp hq
  rw [key_work]
  exact fun heq => (hrest w hw).2 (congrArg Prod.snd heq)

/-- **A crash stays with its volume**, however the workers are interleaved. -/
theorem contained {r r' : Recovering} (hr : Interleaving view check (.start n) r)
    (hended : r.Ended) (hr' : Interleaving view check' (.start n) r') (hended' : r'.Ended) :
    Contained view check n v r r' := by
  obtain ⟨hnode, hreport⟩ := ends_as_alone hapart hr hended
  obtain ⟨hnode', hreport'⟩ := ends_as_alone hapart hr' hended'
  have howns : ∀ id, numbers view v id →
      r.node.catalog.get? id = (n.scan view check v).catalog.get? id := fun id hid => by
    rw [hnode, workAll_get? hapart hv hid]
  have hothers : ∀ id, ¬ numbers view v id →
      r.node.catalog.get? id = r'.node.catalog.get? id := fun id hid => by
    rw [hnode, hnode', workAll_of_other hview hrelents hapart hid]
  refine ⟨?_, howns, hothers, fun id x hx => ?_⟩
  · rw [hreport, hreport']
    exact loses_of_hit hview hcheck hv hapart hp hhit hrelents
  · by_cases hid : numbers view v id
    · -- neither scan of the volume has touched a container of another one
      rw [howns id hid, hnode', workAll_get? hapart hv hid]
      exact (Scan.get?_run_iff (s := scanning view check v) hview n.catalog n.registry id hx).trans
        (Scan.get?_run_iff (s := scanning view check' v) hview n.catalog n.registry id hx).symm
    · rw [hothers id hid]

end

/-- There is a check that relents, since no other volume has the directories. -/
theorem exists_relents (check : StructureCheck) (ids : ContainerId → Prop)
    (hv : v ∈ vs) (hapart : vs.Pairwise (Apart view)) :
    ∃ check', check.Relents check' view ids v vs := by
  classical
  let check' : StructureCheck := fun view' d settings paths =>
    if ids d.id ∧ ∃ dir, Scan.Processes view v.root dir d.id ∧ paths = .ofDirectory dir d.id then
      .accepted
    else check view' d settings paths
  refine ⟨check', ⟨?_, ?_, ?_⟩⟩
  · rintro dir id hprocesses hid d settings rfl
    exact if_pos ⟨hid, dir, hprocesses, rfl⟩
  · rintro dir id - hid d settings rfl
    exact (if_neg fun h => hid h.1).symm
  · rintro w hw hne dir id hprocesses d settings rfl
    have : Std.Symm (Apart view) := ⟨fun _ _ => Apart.symm⟩
    have hother := hapart.forall hw hv hne d.id ⟨dir, hprocesses⟩
    exact (if_neg fun ⟨_, dir', hprocesses', _⟩ => hother ⟨dir', hprocesses'⟩).symm

/-! ## The theorem -/

/-- **A crash is met at the first directory that is hit, and stays with its volume.** A scan crashes just
if one of the directories that it processes is hit. It leaves then what it has gathered from those in front
of the first such directory, and the registry as it was. In a recovery of volumes that are apart, however
the workers are interleaved, a volume with such a directory is listed as crashed and not as scanned, and
all else is as if the check had relented there. -/
theorem crash_contained (view : DiskView) (check : StructureCheck) (ids : ContainerId → Prop)
    (hview : view.WellNamed) (hcheck : check.CrashesOn ids) :
    (∀ (n : Node) (v : Volume) (ds : List (FilePath × ContainerId)), Scan.Processed view v.root ds →
      ((n.scan view check v).report = none ↔ ∃ p ∈ ds, (loading view check v).Hits ids p) ∧
      ∀ before p behind, ds = before ++ p :: behind → (loading view check v).Hits ids p →
        (∀ q ∈ before, ¬ (loading view check v).Hits ids q) →
        (n.scan view check v).registry = n.registry ∧
          (loading view check v).Gathers before n.catalog (n.scan view check v).catalog) ∧
    ∀ (n : Node) (v : Volume) (p : FilePath × ContainerId), v ∈ n.registry.healthy →
      n.registry.healthy.Pairwise (Apart view) → Scan.Processes view v.root p.1 p.2 →
      (loading view check v).Hits ids p →
      (∃ check', check.Relents check' view ids v n.registry.healthy) ∧
      ∀ check', check.Relents check' view ids v n.registry.healthy → ∀ r r' : Recovering,
        Interleaving view check (.start n) r → r.Ended →
        Interleaving view check' (.start n) r' → r'.Ended → Contained view check n v r r' := by
  refine ⟨fun n v ds hds => ?_, fun n v p hv hapart hp hhit => ⟨?_, ?_⟩⟩
  · obtain rfl : (scanning view check v).processed = ds := Scan.processed_iff.mp hds
    refine ⟨Scan.report_eq_none_iff hview hcheck n.catalog n.registry, ?_⟩
    intro before p behind hsplit hp hbefore
    exact (Scan.run_of_hit hview hcheck n.catalog n.registry hsplit hbefore hp).2
  · exact exists_relents check ids hv hapart
  · intro check' hrelents r r' hr hended hr' hended'
    exact contained hview hcheck hv hapart hp hhit hrelents hr hended hr' hended'

/-- The check that is to crash on one container does. -/
theorem crashesOn_special (id : ContainerId) :
    (StructureCheck.special (some id) none).CrashesOn (· = id) := by
  intro view d settings paths
  simp only [StructureCheck.special, Option.some.injEq, reduceCtorEq, if_false]
  split
  · next h => simp [h]
  · next h => simp [Ne.symm h]

/-- A recovery of two volumes that have a container each, one of which the check crashes on. -/
theorem crash_contained_trio :
    let check := StructureCheck.special (some 5) none
    let check' := StructureCheck.special none none
    let u := trioVolume 0 "u"
    let w := trioVolume 1 "w"
    let n : Node := { registry := ⟨[u, w]⟩ }
    trio.view.WellNamed ∧ check.CrashesOn (· = 5) ∧ n.registry.healthy.Pairwise (Apart trio.view) ∧
      (n.scan trio.view check u).report = none ∧
      check.Relents check' trio.view (· = 5) u n.registry.healthy ∧
      ∃ r r', Interleaving trio.view check (.start n) r ∧ r.Ended ∧
        Interleaving trio.view check' (.start n) r' ∧ r'.Ended ∧
        Contained trio.view check n u r r' := by
  intro check check' u w n
  have hview := isTree_trio.wellNamed
  have hcheck : check.CrashesOn (· = 5) := crashesOn_special 5
  have hfive : Scan.Processed trio.view (trioRoot "u") [(trioHome "u" "5", 5)] :=
    processed_trio (by simp)
  have hsix : Scan.Processed trio.view (trioRoot "w") [(trioHome "w" "6", 6)] :=
    processed_trio (by simp)
  have hapart : n.registry.healthy.Pairwise (Apart trio.view) := by
    refine List.pairwise_pair.mpr fun id hu hw => ?_
    exact absurd ((numbers_eq hfive hu).symm.trans (numbers_eq hsix hw)) (by decide)
  have hhit : (loading trio.view check u).Hits (· = 5) (trioHome "u" "5", 5) := by
    obtain ⟨x, -, d, settings, ht, -⟩ := exists_sound_trio 0 (.inl rfl)
    exact ⟨rfl, d, settings, ht.withCheck⟩
  have hrelents : check.Relents check' trio.view (· = 5) u n.registry.healthy := by
    refine ⟨fun _ _ _ _ _ _ _ => rfl, ?_, ?_⟩
    · rintro dir id - hid d settings rfl
      exact if_neg fun h => hid (Option.some.inj h).symm
    · rintro v hv hne dir id hprocesses d settings rfl
      obtain rfl : v = w := (List.mem_pair.mp hv).resolve_left hne
      have hnumber := numbers_eq hsix ⟨dir, hprocesses⟩
      refine if_neg fun h => ?_
      rw [hnumber] at h
      exact absurd h (by decide)
  obtain ⟨hscan, hrecovery⟩ := crash_contained trio.view check (· = 5) hview hcheck
  obtain ⟨r, hr, hended, -⟩ := exists_run n trio.view check
  obtain ⟨r', hr', hended', -⟩ := exists_run n trio.view check'
  have hcrash := (hscan n u _ hfive).1.mpr ⟨_, List.mem_cons_self, hhit⟩
  have hcontained := (hrecovery n u (trioHome "u" "5", 5) List.mem_cons_self hapart
    ⟨_, hfive, List.mem_cons_self⟩ hhit).2 check' hrelents r r' hr hended hr' hended'
  exact ⟨hview, hcheck, hapart, hcrash, hrelents, r, r', hr, hended, hr', hended', hcontained⟩

end Node

end StorageNode
