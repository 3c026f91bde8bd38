import StorageNode.Command
import StorageNode.Proofs.Catalog
import StorageNode.Proofs.Recovery.Reports

/-!
# The accounts of a recovery agree

A recovery leaves three accounts of itself: the catalog, the registry, and the report. Each worker adds to
them on ways of their own, and the command puts its summary together from all three. `Node.recover_agrees`
says that they agree, for any disk, any roots and any interleaving of the workers, so that the summary can
be read off the report alone (`Command.Tally.ofValue`).

For the catalog this is an invariant of a recovery under way (`Node.Matches`): what a worker has listed so
far are the containers of its volume in the catalog. A step adds one container to both, or to neither. The
other workers do not notice it, as long as no two volumes have the same number. For the registry it follows
from what is known of any recovery (`Node.Tracks`).
-/

namespace StorageNode

/-! ## The summary -/

namespace Json.Value

/-- The member of an object with a name. -/
def member? (name : String) : Value → Option Value
  | .object members => (members.find? fun m => m.1 = name).map (·.2)
  | _ => none

/-- The items of the array that a member is. -/
def itemsOf (name : String) (v : Value) : List Value :=
  match v.member? name with
  | some (.array items) => items
  | _ => []

/-- There is a member with the name, and it is not `null`. -/
def gives (name : String) (v : Value) : Bool :=
  match v.member? name with
  | none => false
  | some .null => false
  | some _ => true

end Json.Value

namespace Command

open Json (Value)

/-- The numbers that a summary tells. -/
structure Tally where
  containers : Nat
  volumes : Nat
  skipped : Nat
  failed : Nat

namespace Tally

/-- The line that tells the numbers. -/
def line (t : Tally) : String :=
  "recovered " ++ toString t.containers ++ " containers from " ++ toString t.volumes
    ++ " volumes (" ++ toString t.skipped ++ " skipped, " ++ toString t.failed ++ " volumes failed)"

/-- The numbers as the summary takes them, from the catalog, the report and the registry. -/
def ofNode (r : RecoveryReport) (n : Node) : Tally :=
  ⟨n.catalog.size, r.volumes.length, r.totalSkipped, n.registry.failedRoots.length⟩

/-- The numbers of a report that is given as a value, and of nothing else. -/
def ofValue (v : Value) : Tally where
  containers := ((v.itemsOf "volumes").map fun s => (s.itemsOf "loaded").length).sum
  volumes := (v.itemsOf "volumes").length
  skipped := ((v.itemsOf "volumes").map fun s => (s.itemsOf "skipped").length).sum
  failed := (v.itemsOf "volumes").countP (·.gives "failure")

end Tally

/-- The summary is a line of these numbers. -/
theorem summary_eq (r : RecoveryReport) (n : Node) : summary r n = (Tally.ofNode r n).line := rfl

/-- The numbers in the value are those in the report. -/
theorem ofValue_ofReport (r : RecoveryReport) : Tally.ofValue (ofReport r) =
    ⟨r.totalLoaded, r.volumes.length, r.totalSkipped, r.failedVolumes.length⟩ := by
  have hvolumes : (ofReport r).itemsOf "volumes" = r.volumes.map ofScan := rfl
  have hfailed : ∀ s : ScanReport, (ofScan s).gives "failure" = s.failed := by
    intro s
    obtain ⟨_, _, _, _, _ | _, _⟩ := s <;> rfl
  have hloaded : ∀ s : ScanReport, ((ofScan s).itemsOf "loaded").length = s.loaded.length := fun s =>
    List.length_map _
  have hskipped : ∀ s : ScanReport, ((ofScan s).itemsOf "skipped").length = s.skipped.length :=
    fun s => List.length_map _
  have hcount : (r.volumes.map ofScan).countP (·.gives "failure") = r.failedVolumes.length := by
    rw [List.countP_map, List.countP_eq_length_filter, RecoveryReport.failedVolumes, List.length_map]
    exact congrArg (fun p => (r.volumes.filter p).length) (funext hfailed)
  simp only [Tally.ofValue, hvolumes, List.map_map, Function.comp_def, hloaded, hskipped,
    List.length_map, hcount]
  rfl

end Command

namespace Node

open Recovering

variable {view : DiskView} {check : StructureCheck}

/-! ## What the workers list -/

/-- **The catalog has what the workers list**: each lists the containers of its volume, once, and there
are no others. -/
structure Matches (r : Recovering) : Prop where
  numbered : r.node.catalog.Numbered
  owned : ∀ id x, r.node.catalog.get? id = some x → ∃ v ∈ r.workers.map (·.1), x.volume = v.id
  listed : ∀ w ∈ r.workers, ∀ id, id ∈ w.2.listed ↔ r.node.catalog.Holds w.1.id id
  once : ∀ w ∈ r.workers, w.2.listed.Nodup
  intact : ∀ w ∈ r.workers, w.2 ≠ .finished none

/-- No two volumes of the workers have the same number. -/
def Recovering.ToldApart (r : Recovering) : Prop :=
  (r.workers.map (·.1)).Pairwise fun u v => u.id ≠ v.id

theorem matches_start {n : Node} (h : n.catalog = .empty) : Matches (start n) := by
  have hnone : ∀ id, (start n).node.catalog.get? id = none := fun id => by
    show n.catalog.get? id = none
    rw [h]
    rfl
  have hready : ∀ w ∈ (start n).workers, w.2 = .ready := by
    intro w hw
    obtain ⟨v, -, rfl⟩ := List.mem_map.mp hw
    rfl
  refine ⟨?_, ?_, ?_, ?_, ?_⟩
  · intro id x hx
    simp [hnone] at hx
  · intro id x hx
    simp [hnone] at hx
  · intro w hw id
    simp [hready w hw, Task.listed, Catalog.Holds, hnone]
  · intro w hw
    simp [hready w hw, Task.listed]
  · intro w hw
    simp [hready w hw]

variable {r r' : Recovering}

/-- The volumes of the workers stay. -/
theorem Recovering.Step.volumes (h : Step view check r r') :
    r'.workers.map (·.1) = r.workers.map (·.1) := by
  obtain ⟨before, behind, v, t, t', n, n', rfl, rfl, -⟩ := h.moves
  exact map_fst_workers

/-- The other workers have volumes with other numbers. -/
theorem Recovering.ToldApart.others {n : Node} {before behind : List (Volume × Task)} {v : Volume}
    {t : Task} (h : Recovering.ToldApart ⟨n, before ++ (v, t) :: behind⟩) :
    ∀ w ∈ before ++ behind, w.1.id ≠ v.id := by
  rw [Recovering.ToldApart, List.pairwise_map] at h
  have hall : ((v, t) :: (before ++ behind)).Pairwise fun a b => a.1.id ≠ b.1.id :=
    (List.pairwise_middle fun h => h.symm).mp h
  exact fun w hw => ((List.pairwise_cons.mp hall).1 w hw).symm

section

variable {m m' : Node} {before behind : List (Volume × Task)} {v : Volume} {t t' : Task}

/-- A worker that lists nothing new and leaves the catalog alone changes nothing. -/
theorem Matches.keep (h : Matches ⟨m, before ++ (v, t) :: behind⟩) (hcatalog : m'.catalog = m.catalog)
    (hlist : t'.listed = t.listed) (hintact : t' ≠ .finished none) :
    Matches ⟨m', before ++ (v, t') :: behind⟩ where
  numbered := by
    show m'.catalog.Numbered
    exact hcatalog ▸ h.numbered
  owned id x hx := by
    have hvolumes : (before ++ (v, t') :: behind).map (·.1) =
        (before ++ (v, t) :: behind).map (·.1) := map_fst_workers
    rw [hvolumes]
    exact h.owned id x (hcatalog ▸ hx)
  listed := by
    show ∀ w ∈ before ++ (v, t') :: behind, ∀ id, id ∈ w.2.listed ↔ m'.catalog.Holds w.1.id id
    rw [hcatalog]
    exact forall_workers h.listed (fun hown => hlist ▸ hown) fun _ _ hw => hw
  once := forall_workers h.once (fun hown => hlist ▸ hown) fun _ _ hw => hw
  intact := forall_workers h.intact (fun _ => hintact) fun _ _ hw => hw

/-- A worker that lists what the catalog gains keeps both together. -/
theorem Matches.gain (h : Matches ⟨m, before ++ (v, t) :: behind⟩)
    (htold : ToldApart ⟨m, before ++ (v, t) :: behind⟩) {x : Container} (hvolume : x.volume = v.id)
    (hg : m.catalog.Gains x m'.catalog) (hlist : t'.listed = t.listed ++ [x.id])
    (hintact : t' ≠ .finished none) : Matches ⟨m', before ++ (v, t') :: behind⟩ where
  numbered := hg.numbered h.numbered
  owned id y hy := by
    have hvolumes : (before ++ (v, t') :: behind).map (·.1) =
        (before ++ (v, t) :: behind).map (·.1) := map_fst_workers
    have hy' : m'.catalog.get? id = some y := hy
    rw [hg.entries] at hy'
    split at hy'
    · obtain rfl := Option.some.inj hy'
      exact ⟨v, by simp, hvolume⟩
    · rw [hvolumes]
      exact h.owned id y hy'
  listed := by
    refine forall_workers h.listed (fun hown id => ?_) fun w hw hlisted id => ?_
    · rw [hlist, List.mem_append, List.mem_singleton, hown id, hg.holds_iff, or_comm]
      simp [hvolume]
    · -- the new container is on a volume with another number
      rw [hlisted id, hg.holds_iff]
      have hother : x.volume ≠ w.1.id := fun heq => htold.others w hw (heq.symm.trans hvolume)
      simp [hother]
  once := by
    have hfresh : x.id ∉ t.listed := by
      rw [h.listed (v, t) (by simp)]
      rintro ⟨y, hy, -⟩
      exact absurd (hg.vacant.symm.trans hy) (by simp)
    refine forall_workers h.once (fun hown => ?_) fun _ _ hw => hw
    rw [hlist]
    refine List.nodup_append.mpr ⟨hown, List.nodup_singleton _, fun id hid _ hmem heq => hfresh ?_⟩
    rwa [← List.mem_singleton.mp hmem, ← heq]
  intact := forall_workers h.intact (fun _ => hintact) fun _ _ hw => hw

end

/-- **A step keeps catalog and lists together.** -/
theorem Matches.step (hcheck : check.NeverCrashes) (htold : r.ToldApart) (h : Matches r)
    (hstep : Step view check r r') : Matches r' := by
  obtain ⟨before, behind, v, t, t', m, m', rfl, rfl, hmoves⟩ := hstep.moves
  have hintact := hmoves.ne_crashed hcheck
  rcases hmoves.listed with ⟨hcatalog, hlist | hcrashed⟩ | ⟨x, hvolume, hg, hlist⟩
  · exact h.keep hcatalog hlist hintact
  · exact absurd hcrashed hintact
  · exact h.gain htold hvolume hg hlist hintact

/-- **Along an interleaving, catalog and lists stay together.** -/
theorem Matches.of_interleaving (hcheck : check.NeverCrashes) {r r' : Recovering} (htold : r.ToldApart)
    (h : Matches r) (hr : Interleaving view check r r') : Matches r' ∧ r'.ToldApart := by
  induction hr with
  | refl => exact ⟨h, htold⟩
  | tail _ hstep ih =>
      obtain ⟨hmatches, htold⟩ := ih
      refine ⟨hmatches.step hcheck htold hstep, ?_⟩
      rw [Recovering.ToldApart, hstep.volumes]
      exact htold

/-! ## The reports in the end -/

/-- In the end, every worker has reported what it has listed. -/
theorem Matches.exists_report (h : Matches r) (hended : r.Ended) {w : Volume × Task}
    (hw : w ∈ r.workers) :
    ∃ rep ∈ r.report.volumes, w.2 = .finished (some rep) ∧ rep.loaded = w.2.listed := by
  obtain ⟨rep, hrep⟩ := hended w hw
  cases rep with
  | none => exact absurd hrep (h.intact w hw)
  | some rep =>
      rw [volumes_report]
      refine ⟨rep, List.mem_filterMap.mpr ⟨w, hw, report?_eq_some_iff.mpr hrep⟩, hrep, ?_⟩
      rw [hrep]
      rfl

/-- A report in the end is one of a worker, on its volume. -/
theorem Tracks.exists_worker {n : Node} (h : Tracks n r) {rep : ScanReport}
    (hrep : rep ∈ r.report.volumes) :
    ∃ w ∈ r.workers, w.2 = .finished (some rep) ∧ rep.volume = w.1.id ∧ rep.loaded = w.2.listed := by
  rw [volumes_report] at hrep
  obtain ⟨w, hw, hreport⟩ := List.mem_filterMap.mp hrep
  rw [report?_eq_some_iff] at hreport
  refine ⟨w, hw, hreport, congrArg Prod.fst (h.on w hw rep hreport), ?_⟩
  rw [hreport]
  rfl

/-- No container is listed twice. -/
theorem Matches.nodup_loaded (htold : r.ToldApart) (h : Matches r) :
    (r.report.volumes.flatMap (·.loaded)).Nodup := by
  have hloaded : ∀ {w rep}, report? w = some rep → rep.loaded = w.2.listed := by
    intro w rep hrep
    rw [report?_eq_some_iff.mp hrep]
    rfl
  rw [volumes_report, List.nodup_flatMap]
  constructor
  · intro rep hrep
    obtain ⟨w, hw, hreport⟩ := List.mem_filterMap.mp hrep
    rw [hloaded hreport]
    exact h.once w hw
  · refine List.pairwise_filterMap.mpr ((List.pairwise_map.mp htold).imp_of_mem ?_)
    intro a b ha hb hne rep hrep rep' hrep' id hid hid'
    -- a container would be on two volumes
    change id ∈ rep.loaded at hid
    change id ∈ rep'.loaded at hid'
    rw [hloaded hrep, h.listed a ha] at hid
    rw [hloaded hrep', h.listed b hb] at hid'
    obtain ⟨x, hx, hvolume⟩ := hid
    obtain ⟨y, hy, hvolume'⟩ := hid'
    obtain rfl := Option.some.inj (hx.symm.trans hy)
    exact hne (hvolume.symm.trans hvolume')

/-- The volumes that have failed are those whose reports say so. -/
theorem failedRoots_eq {p : FilePath → Bool} {ws : List (Volume × Task)} (hon : ∀ w ∈ ws, w.2.On w.1)
    (hhealthy : ∀ w ∈ ws, w.1.isHealthy = true) (hfails : ∀ w ∈ ws, p w.1.root = w.2.failed) :
    (((ws.map (·.1)).map (·.failing p)).filter (·.isFailed)).map (·.root) =
      ((ws.filterMap report?).filter (·.failed)).map (·.root) := by
  induction ws with
  | nil => rfl
  | cons w ws ih =>
      obtain ⟨hon, hons⟩ := List.forall_mem_cons.mp hon
      obtain ⟨hhealthy, hhealthys⟩ := List.forall_mem_cons.mp hhealthy
      obtain ⟨hfails, hfailss⟩ := List.forall_mem_cons.mp hfails
      have hrest := ih hons hhealthys hfailss
      have hfailed : (w.1.failing p).isFailed = w.2.failed := by
        rw [Volume.isHealthy_eq, Bool.not_eq_true'] at hhealthy
        rw [Volume.isFailed_failing, hhealthy, hfails, Bool.false_or]
      have hsame : report? w = none → w.2.failed = false := by
        obtain ⟨v, _ | _ | _ | _⟩ := w <;> simp [report?, Task.failed]
      cases hreport : report? w with
      | none =>
          rw [List.filterMap_cons_none hreport, List.map_cons, List.map_cons, List.filter_cons, hfailed,
            hsame hreport]
          exact hrest
      | some rep =>
          have hrep := report?_eq_some_iff.mp hreport
          have hroot : rep.root = w.1.root := congrArg Prod.snd (hon rep hrep)
          have hsays : w.2.failed = rep.failed := by
            rw [hrep]
            rfl
          rw [List.filterMap_cons_some hreport, List.map_cons, List.map_cons, List.filter_cons,
            List.filter_cons, hfailed, hsays]
          cases rep.failed with
          | true =>
              rw [if_pos rfl, if_pos rfl, List.map_cons, List.map_cons, Volume.failing_root, hroot, hrest]
          | false => exact hrest

/-! ## The theorem -/

/-- **The accounts of a recovery agree**: the catalog and the registry of the node with the report. -/
structure Agrees (n : Node) (report : RecoveryReport) : Prop where
  loaded : n.catalog.ids.Perm (report.volumes.flatMap (·.loaded))
  /-- No container is listed twice, in one report or in two. -/
  once : (report.volumes.flatMap (·.loaded)).Nodup
  each : ∀ rep ∈ report.volumes, ((n.catalog.containersOn rep.volume).map (·.id)).Perm rep.loaded
  failed : n.registry.failedRoots = report.failedVolumes
  /-- The numbers of the summary are those of the report as a value. -/
  tally : Command.Tally.ofNode report n = Command.Tally.ofValue (Command.ofReport report)
  summary : Command.summary report n = (Command.Tally.ofValue (Command.ofReport report)).line

/-- If catalog and registry agree with the report, so do the numbers of the summary. -/
theorem tally_eq {n : Node} {report : RecoveryReport}
    (hloaded : n.catalog.ids.Perm (report.volumes.flatMap (·.loaded)))
    (hfailed : n.registry.failedRoots = report.failedVolumes) :
    Command.Tally.ofNode report n = Command.Tally.ofValue (Command.ofReport report) := by
  have hsize : n.catalog.size = report.totalLoaded := by
    calc n.catalog.size = n.catalog.ids.length := (List.length_map _).symm
      _ = (report.volumes.flatMap (·.loaded)).length := hloaded.length_eq
      _ = report.totalLoaded := List.length_flatMap
  rw [Command.ofValue_ofReport, Command.Tally.ofNode, hsize, hfailed]

/-- In the end, the catalog has what the reports list. -/
theorem Matches.loaded {n : Node} (h : Matches r) (htracks : Tracks n r) (htold : r.ToldApart)
    (hended : r.Ended) : r.node.catalog.ids.Perm (r.report.volumes.flatMap (·.loaded)) := by
  refine (List.perm_ext_iff_of_nodup r.node.catalog.containers.nodup_keys
    (h.nodup_loaded htold)).mpr fun id => ?_
  rw [List.mem_flatMap]
  constructor
  · intro hid
    obtain ⟨x, hx⟩ := Catalog.mem_ids_iff.mp hid
    obtain ⟨v, hv, hvolume⟩ := h.owned id x hx
    obtain ⟨w, hw, rfl⟩ := List.mem_map.mp hv
    obtain ⟨rep, hrep, -, heq⟩ := h.exists_report hended hw
    refine ⟨rep, hrep, ?_⟩
    rw [heq, h.listed w hw]
    exact ⟨x, hx, hvolume⟩
  · rintro ⟨rep, hrep, hid⟩
    obtain ⟨w, hw, -, -, heq⟩ := htracks.exists_worker hrep
    rw [heq, h.listed w hw] at hid
    obtain ⟨x, hx, -⟩ := hid
    exact Catalog.mem_ids_iff.mpr ⟨x, hx⟩

/-- If all volumes were healthy, those have failed that the reports say. -/
theorem Tracks.failedRoots {n : Node} (horderly : n.registry.Orderly)
    (hhealthy : ∀ v ∈ n.registry.volumes, v.isHealthy = true) (htracks : Tracks n r) :
    r.node.registry.failedRoots = r.report.failedVolumes := by
  have hvolumes : r.workers.map (·.1) = n.registry.volumes := by
    rw [htracks.volumes]
    exact List.filter_eq_self.mpr hhealthy
  rw [Registry.failedRoots, RecoveryReport.failedVolumes, htracks.registry, Registry.failing,
    ← hvolumes, volumes_report]
  exact failedRoots_eq htracks.on
    (fun w hw => (List.mem_filter.mp (htracks.mem_healthy hw)).2)
    fun w hw => htracks.fails_eq horderly hw

/-- What is known of a recovery in the end makes its accounts agree. -/
theorem Matches.agrees {n : Node} (horderly : n.registry.Orderly)
    (hhealthy : ∀ v ∈ n.registry.volumes, v.isHealthy = true) (htracks : Tracks n r) (htold : r.ToldApart)
    (h : Matches r) (hended : r.Ended) : Agrees r.node r.report := by
  have hloaded := h.loaded htracks htold hended
  have hfailed := htracks.failedRoots horderly hhealthy
  have htally := tally_eq hloaded hfailed
  refine ⟨hloaded, h.nodup_loaded htold, fun rep hrep => ?_, hfailed, htally,
    htally ▸ Command.summary_eq r.report r.node⟩
  obtain ⟨w, hw, -, hvolume, heq⟩ := htracks.exists_worker hrep
  obtain ⟨hnodup, hmem⟩ := h.numbered.containersOn rep.volume
  have honce : rep.loaded.Nodup := heq ▸ h.once w hw
  refine (List.perm_ext_iff_of_nodup hnodup honce).mpr fun id => ?_
  rw [hmem, heq, h.listed w hw, hvolume]

/-- **The accounts of a recovery agree.** Whatever is on the disk, and whatever roots the volumes have, with
no more of them different than there are numbers: however the workers take their steps, the catalog has
what the reports list, the registry has failed the volumes that the reports say, and the summary of the
command is that of the report alone. The same holds if the volumes are scanned one after another. -/
theorem recover_agrees (view : DiskView) (roots : List FilePath)
    (hfew : FilePath.AtMost UInt32.size roots) :
    (∀ r, Interleaving view .indexFile (.start { registry := (Registry.empty.registerAll roots).1 }) r →
      r.Ended → Agrees r.node r.report) ∧
    Agrees (recover view roots).2.1 (recover view roots).1 := by
  have hreached := Registry.Reached.empty.registerAll roots
  have hhealthy : ∀ v ∈ (Registry.empty.registerAll roots).1.volumes, v.isHealthy = true :=
    Registry.isHealthy_registerAll (by simp [Registry.empty]) roots
  have hlength : (Registry.empty.registerAll roots).1.volumes.length ≤ UInt32.size :=
    hreached.length_le (hfew.mono (by simp))
  have htold : (start { registry := (Registry.empty.registerAll roots).1 }).ToldApart := by
    rw [Recovering.ToldApart, (tracks_start _).volumes]
    exact (hreached.orderly.nodup_ids hlength).filter _
  have hagrees : ∀ r, Interleaving view .indexFile
      (.start { registry := (Registry.empty.registerAll roots).1 }) r → r.Ended →
      Agrees r.node r.report := by
    intro r hr hended
    obtain ⟨hmatches, htold'⟩ :=
      (matches_start rfl).of_interleaving StructureCheck.neverCrashes_indexFile htold hr
    exact hmatches.agrees hreached.orderly hhealthy
      (Tracks.of_interleaving hreached.orderly hr) htold' hended
  refine ⟨hagrees, ?_⟩
  obtain ⟨r, hr, hended, hnode, hreport⟩ :=
    exists_run { registry := (Registry.empty.registerAll roots).1 } view .indexFile
  have hrun := hagrees r hr hended
  rw [hnode, hreport] at hrun
  exact hrun

/-- A recovery of volumes two of which hold the same container, and one of which is named twice. -/
theorem recover_agrees_trio :
    FilePath.AtMost UInt32.size [trioRoot "u", trioRoot "v", ⟨"/u/"⟩] ∧
      Agrees (recover trio.view [trioRoot "u", trioRoot "v", ⟨"/u/"⟩]).2.1
        (recover trio.view [trioRoot "u", trioRoot "v", ⟨"/u/"⟩]).1 := by
  have hfew : FilePath.AtMost UInt32.size [trioRoot "u", trioRoot "v", ⟨"/u/"⟩] :=
    .of_length_le (by decide)
  exact ⟨hfew, (recover_agrees trio.view _ hfew).2⟩

end Node

end StorageNode
