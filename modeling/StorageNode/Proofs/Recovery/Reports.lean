import Mathlib.Data.List.Forall2
import StorageNode.Proofs.Recovery.Moves

/-!
# Every healthy volume is accounted for once

The report of a recovery has a place for every volume that was healthy when it began, and for no other:
among the reports of the scans, or among the workers that crashed (`Node.Accounts`). Only a scan that says
so fails its volume, and only containers of these volumes come into the catalog (`Node.Accounted`).
`Node.recovery_accounts` says so of every interleaving that has come to its end, for any check, and of the
scans one after another.

What carries it is `Node.Tracks`, which every step keeps: the registry is that of the beginning, with the
volumes failed whose workers say so. Since no two volumes have the same root, a worker fails its own volume
and no other (`Node.Tracks.fails_eq`).
-/

namespace StorageNode

/-- A volume is told by its number and its root. -/
def Volume.key (v : Volume) : VolumeId × FilePath := (v.id, v.root)

/-- The volume that a report is on. -/
def ScanReport.key (r : ScanReport) : VolumeId × FilePath := (r.volume, r.root)

/-- The volume whose worker has crashed. -/
def WorkerFailure.key (f : WorkerFailure) : VolumeId × FilePath := (f.volume, f.root)

namespace Node

namespace Task

/-- The worker has reported the failure of its volume. -/
def failed : Task → Bool
  | .finished (some rep) => rep.failed
  | _ => false

/-- If the worker has reported, then on its volume. -/
def On (v : Volume) (t : Task) : Prop := ∀ rep, t = .finished (some rep) → rep.key = v.key

variable {s : Scan} {n n' : Node} {t t' : Task}

/-- A report is made on the volume that is scanned. -/
theorem Moves.on {view : DiskView} {check : StructureCheck} {v : Volume}
    (h : Moves (scanning view check v) n t t' n') : t'.On v := by
  intro rep hrep
  cases h <;> cases hrep <;> rfl

/-- **A step fails the volume and reports so**, or leaves the registry as it is. -/
theorem Moves.failed (h : Moves s n t t' n') :
    t.failed = false ∧ ((t'.failed = true ∧ n'.registry = (n.registry.fail s.root).1) ∨
      (t'.failed = false ∧ n'.registry = n.registry)) := by
  cases h with
  | fails => exact ⟨rfl, .inl ⟨rfl, rfl⟩⟩
  | _ => exact ⟨rfl, .inr ⟨rfl, rfl⟩⟩

end Task

open Recovering

variable {view : DiskView} {check : StructureCheck}

/-! ## What is known of a recovery under way -/

/-- A worker has reported the failure of its volume, which has the root. -/
def Recovering.fails (r : Recovering) (root : FilePath) : Bool :=
  r.workers.any fun w => w.2.failed && root.same w.1.root

/-- **What is known of a recovery under way** that started from a node. -/
structure Tracks (n : Node) (r : Recovering) : Prop where
  volumes : r.workers.map (·.1) = n.registry.healthy
  on : ∀ w ∈ r.workers, w.2.On w.1
  /-- The volumes whose workers say so have failed since. -/
  registry : r.node.registry = n.registry.failing r.fails
  gained : ∀ id x, r.node.catalog.get? id = some x →
    n.catalog.get? id = some x ∨ ∃ v ∈ n.registry.healthy, x.volume = v.id

theorem tracks_start (n : Node) : Tracks n (start n) where
  volumes := by simp [start, Function.comp_def]
  on := by
    intro w hw rep hrep
    obtain ⟨v, -, rfl⟩ := List.mem_map.mp hw
    cases hrep
  registry := by
    have hnone : ∀ root, (start n).fails root = false := by
      intro root
      simp [Recovering.fails, start, Task.failed]
    exact (Registry.failing_none hnone n.registry).symm
  gained _ _ h := .inl h

variable {n : Node} {r r' : Recovering}

theorem Tracks.mem_healthy (h : Tracks n r) {w : Volume × Task} (hw : w ∈ r.workers) :
    w.1 ∈ n.registry.healthy := h.volumes ▸ List.mem_map_of_mem hw

/-- **A step keeps what is known.** -/
theorem Tracks.step (horderly : n.registry.Orderly) (h : Tracks n r) (hstep : Step view check r r') :
    Tracks n r' := by
  obtain ⟨before, behind, v, t, t', m, m', rfl, rfl, hmoves⟩ := hstep.moves
  refine ⟨by simpa using h.volumes, ?_, ?_, fun id x hx => ?_⟩
  · exact forall_workers h.on (fun _ => hmoves.on) fun _ _ hw => hw
  · have hregistry : m.registry = n.registry.failing
        (Recovering.fails ⟨m, before ++ (v, t) :: behind⟩) := h.registry
    show m'.registry = _
    obtain ⟨hbefore, ⟨hfailed, hm'⟩ | ⟨hfailed, hm'⟩⟩ := hmoves.failed
    · rw [hm', hregistry, (horderly.failing _).fail_eq, Registry.failing_failing]
      congr 1
      funext root
      simp only [Recovering.fails, List.any_append, List.any_cons, hbefore, hfailed, Bool.false_and,
        Bool.true_and, Bool.false_or]
      rw [Bool.or_assoc, Bool.or_comm (behind.any _)]
    · rw [hm', hregistry]
      congr 1
      funext root
      simp only [Recovering.fails, List.any_append, List.any_cons, hbefore, hfailed]
  · rcases hmoves.listed with ⟨hsame, -⟩ | ⟨y, hvolume, hg, -⟩
    · exact h.gained id x (hsame ▸ hx)
    · have hy : m'.catalog.get? id = some x := hx
      rw [hg.entries] at hy
      split at hy
      · obtain rfl := Option.some.inj hy
        exact .inr ⟨v, h.mem_healthy (w := (v, t)) (by simp), hvolume⟩
      · exact h.gained id x hy

/-- **Along an interleaving, all of it stays known.** -/
theorem Tracks.of_interleaving (horderly : n.registry.Orderly)
    (h : Interleaving view check (start n) r) : Tracks n r := by
  induction h with
  | refl => exact tracks_start n
  | tail _ hstep ih => exact ih.step horderly hstep

/-- A worker fails its own volume and no other. -/
theorem Tracks.fails_eq (horderly : n.registry.Orderly) (h : Tracks n r) {w : Volume × Task}
    (hw : w ∈ r.workers) : r.fails w.1.root = w.2.failed := by
  have hnodup : (r.workers.map (·.1)).Nodup := h.volumes ▸ horderly.nodup.filter _
  have hvolume : ∀ u ∈ r.workers, u.1 ∈ n.registry.volumes := fun u hu =>
    (List.mem_filter.mp (h.mem_healthy hu)).1
  rw [Bool.eq_iff_iff, Recovering.fails, List.any_eq_true]
  constructor
  · rintro ⟨u, hu, hfails⟩
    obtain ⟨hfailed, hsame⟩ := Bool.and_eq_true_iff.mp hfails
    have hroot : w.1 = u.1 := horderly.eq_of_root (hvolume w hw) (hvolume u hu) hsame
    rwa [List.inj_on_of_nodup_map hnodup hw hu hroot]
  · intro hfailed
    exact ⟨w, hw, by simp [hfailed, FilePath.same_self]⟩

/-! ## Reports and crashes -/

/-- The report that a worker has made. -/
def Recovering.report? (w : Volume × Task) : Option ScanReport :=
  match w.2 with
  | .finished rep => rep
  | _ => none

/-- The failure of a worker that has crashed. -/
def Recovering.crash? : Volume × Task → Option WorkerFailure
  | (v, .finished none) => some ⟨v.id, v.root, "scan worker panicked"⟩
  | _ => none

theorem volumes_report (r : Recovering) : r.report.volumes = r.workers.filterMap report? := by
  show List.filterMap _ (r.workers.filterMap result?) = _
  rw [List.filterMap_filterMap]
  refine congrArg (List.filterMap · r.workers) (funext fun w => ?_)
  obtain ⟨v, _ | _ | _ | _⟩ := w <;> rfl

theorem workerFailures_report (r : Recovering) :
    r.report.workerFailures = r.workers.filterMap crash? := by
  show List.filterMap _ (r.workers.filterMap result?) = _
  rw [List.filterMap_filterMap]
  refine congrArg (List.filterMap · r.workers) (funext fun w => ?_)
  obtain ⟨v, _ | _ | _ | _⟩ := w <;> rfl

theorem report?_eq_some_iff {w : Volume × Task} {rep : ScanReport} :
    report? w = some rep ↔ w.2 = .finished (some rep) := by
  obtain ⟨v, _ | _ | _ | _⟩ := w <;> simp [report?]

theorem crash?_eq_some_iff {w : Volume × Task} {f : WorkerFailure} :
    crash? w = some f ↔ w.2 = .finished none ∧ ⟨w.1.id, w.1.root, "scan worker panicked"⟩ = f := by
  obtain ⟨v, _ | _ | _ | _⟩ := w <;> simp [crash?]

/-- Who has come to its end has reported or crashed. -/
theorem keys_workers {ws : List (Volume × Task)} (hon : ∀ w ∈ ws, w.2.On w.1)
    (hdone : ∀ w ∈ ws, w.2.Done) :
    (ws.filterMap report?).map (·.key) =
        (ws.filter fun w => (report? w).isSome).map (·.1.key) ∧
      (ws.filterMap crash?).map (·.key) =
        (ws.filter fun w => !(report? w).isSome).map (·.1.key) := by
  induction ws with
  | nil => exact ⟨rfl, rfl⟩
  | cons w ws ih =>
      obtain ⟨hon, hons⟩ := List.forall_mem_cons.mp hon
      obtain ⟨⟨rep, hrep⟩, hdones⟩ := List.forall_mem_cons.mp hdone
      obtain ⟨hreports, hcrashes⟩ := ih hons hdones
      obtain ⟨v, t⟩ := w
      obtain rfl : t = .finished rep := hrep
      cases rep with
      | none => exact ⟨hreports, congrArg (v.key :: ·) hcrashes⟩
      | some rep =>
          have hkey : rep.key = v.key := hon rep rfl
          refine ⟨?_, hcrashes⟩
          simp only [report?, List.filterMap_cons, List.map_cons, hkey, hreports]
          rfl

/-! ## The theorem -/

/-- **A report has each of the volumes once**: among its scans or among its crashes, both in the order of
the volumes, and has no others. -/
structure Accounts (vs : List Volume) (report : RecoveryReport) : Prop where
  scanned : (report.volumes.map (·.key)).Sublist (vs.map (·.key))
  crashed : (report.workerFailures.map (·.key)).Sublist (vs.map (·.key))
  together : (report.volumes.map (·.key) ++ report.workerFailures.map (·.key)).Perm (vs.map (·.key))
  once : (report.volumes.map (·.key) ++ report.workerFailures.map (·.key)).Nodup

/-- **What a recovery that reports so has done to a node.** -/
structure Accounted (n n' : Node) (report : RecoveryReport) : Prop where
  healthy : Accounts n.registry.healthy report
  /-- A volume that had failed is not scanned. -/
  unscanned : ∀ v ∈ n.registry.volumes, v.isFailed = true →
    v.key ∉ report.volumes.map (·.key) ++ report.workerFailures.map (·.key)
  /-- What the catalog has gained is of the volumes that were healthy. -/
  gained : ∀ id x, n'.catalog.get? id = some x →
    n.catalog.get? id = some x ∨ ∃ v ∈ n.registry.healthy, x.volume = v.id
  /-- As long as numbers of volumes are not given twice, nothing is added under that of a volume that
  had failed. -/
  spared : n.registry.volumes.length ≤ UInt32.size → ∀ v ∈ n.registry.volumes, v.isFailed = true →
    ∀ id x, n'.catalog.get? id = some x → x.volume = v.id → n.catalog.get? id = some x
  /-- A volume has failed if it had failed before or its scan says so. -/
  states : List.Forall₂ (fun v v' => v'.key = v.key ∧ (v'.isFailed = true ↔
    v.isFailed = true ∨ ∃ rep ∈ report.volumes, rep.key = v.key ∧ rep.failed = true))
    n.registry.volumes n'.registry.volumes
  /-- A volume whose worker crashed stays healthy. -/
  crashed : ∀ f ∈ report.workerFailures,
    ∃ v ∈ n'.registry.volumes, v.key = f.key ∧ v.isHealthy = true

theorem Tracks.accounts (horderly : n.registry.Orderly) (h : Tracks n r) (hended : r.Ended) :
    Accounts n.registry.healthy r.report := by
  have hkeys : n.registry.healthy.map (·.key) = r.workers.map (·.1.key) := by
    rw [← h.volumes, List.map_map]
    rfl
  have hnodup : (n.registry.healthy.map (·.key)).Nodup := by
    have hroots : ((n.registry.healthy.map (·.key)).map (·.2)).Nodup := by
      rw [List.map_map]
      exact horderly.distinct.nodup.sublist (List.filter_sublist.map _)
    exact hroots.of_map
  obtain ⟨hreports, hcrashes⟩ := keys_workers h.on hended
  rw [← volumes_report] at hreports
  rw [← workerFailures_report] at hcrashes
  have htogether : (r.report.volumes.map (·.key) ++ r.report.workerFailures.map (·.key)).Perm
      (n.registry.healthy.map (·.key)) := by
    rw [hreports, hcrashes, hkeys, ← List.map_append]
    exact (List.filter_append_perm _ _).map _
  exact {
    scanned := by
      rw [hreports, hkeys]
      exact List.filter_sublist.map _
    crashed := by
      rw [hcrashes, hkeys]
      exact List.filter_sublist.map _
    together := htogether
    once := htogether.nodup_iff.mpr hnodup }

/-- A volume is failed by its scan if the report of the scan says so. -/
theorem Tracks.fails_iff (horderly : n.registry.Orderly) (h : Tracks n r) {v : Volume}
    (hv : v ∈ n.registry.volumes) :
    r.fails v.root = true ↔ ∃ rep ∈ r.report.volumes, rep.key = v.key ∧ rep.failed = true := by
  rw [volumes_report]
  constructor
  · intro hfails
    obtain ⟨w, hw, hboth⟩ := List.any_eq_true.mp hfails
    obtain ⟨hfailed, hsame⟩ := Bool.and_eq_true_iff.mp hboth
    obtain rfl : v = w.1 := horderly.eq_of_root hv (List.mem_filter.mp (h.mem_healthy hw)).1 hsame
    obtain ⟨rep, hrep⟩ : ∃ rep, w.2 = .finished (some rep) := by
      cases ht : w.2 with
      | finished rep =>
          cases rep with
          | some rep => exact ⟨rep, rfl⟩
          | none => simp [ht, Task.failed] at hfailed
      | ready | walking => simp [ht, Task.failed] at hfailed
    rw [hrep] at hfailed
    have hmem := List.mem_filterMap.mpr ⟨w, hw, report?_eq_some_iff.mpr hrep⟩
    exact ⟨rep, hmem, h.on w hw rep hrep, hfailed⟩
  · rintro ⟨rep, hmem, hkey, hfailed⟩
    obtain ⟨w, hw, hrep⟩ := List.mem_filterMap.mp hmem
    rw [report?_eq_some_iff] at hrep
    have hroot : v.root = w.1.root :=
      congrArg Prod.snd (hkey.symm.trans (h.on w hw rep hrep))
    rw [hroot, h.fails_eq horderly hw, hrep]
    exact hfailed

/-- A volume that had failed is none of the healthy ones. -/
theorem ne_of_isFailed {registry : Registry} {u v : Volume} (hu : u ∈ registry.healthy)
    (hv : v.isFailed = true) :
    v ≠ u := by
  rintro rfl
  have hhealthy := (List.mem_filter.mp hu).2
  rw [Volume.isHealthy_eq, hv] at hhealthy
  simp at hhealthy

/-- A volume that had failed is in no report. -/
theorem Accounts.unscanned {report : RecoveryReport} (horderly : n.registry.Orderly)
    (h : Accounts n.registry.healthy report) {v : Volume} (hv : v ∈ n.registry.volumes)
    (hfailed : v.isFailed = true) :
    v.key ∉ report.volumes.map (·.key) ++ report.workerFailures.map (·.key) := by
  intro hmem
  obtain ⟨u, hu, hkey⟩ := List.mem_map.mp (h.together.mem_iff.mp hmem)
  have hsame : v.root.same u.root = true := by
    have hroot : u.root = v.root := congrArg Prod.snd hkey
    rw [hroot]
    exact FilePath.same_self _
  exact ne_of_isFailed hu hfailed (horderly.eq_of_root hv (List.mem_filter.mp hu).1 hsame)

/-- Nothing is added under the number of a volume that had failed. -/
theorem Tracks.spared (horderly : n.registry.Orderly) (h : Tracks n r)
    (hfew : n.registry.volumes.length ≤ UInt32.size) {v : Volume} (hv : v ∈ n.registry.volumes)
    (hfailed : v.isFailed = true) {id : ContainerId} {x : Container}
    (hx : r.node.catalog.get? id = some x) (hvolume : x.volume = v.id) :
    n.catalog.get? id = some x := by
  rcases h.gained id x hx with hold | ⟨u, hu, hu'⟩
  · exact hold
  · have hget := horderly.get?_id hfew (List.mem_filter.mp hu).1
    rw [← hu', hvolume, horderly.get?_id hfew hv] at hget
    exact absurd (Option.some.inj hget) (ne_of_isFailed hu hfailed)

theorem Tracks.volumes_registry (h : Tracks n r) :
    r.node.registry.volumes = n.registry.volumes.map (·.failing r.fails) := by
  rw [h.registry]
  rfl

/-- A volume whose worker crashed stays healthy. -/
theorem Tracks.crashed_healthy (horderly : n.registry.Orderly) (h : Tracks n r) {f : WorkerFailure}
    (hf : f ∈ r.report.workerFailures) :
    ∃ v ∈ r.node.registry.volumes, v.key = f.key ∧ v.isHealthy = true := by
  rw [workerFailures_report] at hf
  obtain ⟨w, hw, hcrash⟩ := List.mem_filterMap.mp hf
  obtain ⟨hdone, rfl⟩ := crash?_eq_some_iff.mp hcrash
  have hfails : r.fails w.1.root = false := by
    rw [h.fails_eq horderly hw, hdone]
    rfl
  obtain ⟨hmem, hhealthy⟩ := List.mem_filter.mp (h.mem_healthy hw)
  refine ⟨w.1.failing r.fails, ?_, by simp [Volume.key, WorkerFailure.key], ?_⟩
  · rw [h.volumes_registry]
    exact List.mem_map_of_mem hmem
  · rw [Volume.isHealthy_eq] at hhealthy ⊢
    rw [Volume.isFailed_failing, hfails, Bool.or_false]
    exact hhealthy

/-- What a recovery that has come to its end has done. -/
theorem Tracks.accounted (horderly : n.registry.Orderly) (h : Tracks n r) (hended : r.Ended) :
    Accounted n r.node r.report where
  healthy := h.accounts horderly hended
  unscanned _ hv hfailed := (h.accounts horderly hended).unscanned horderly hv hfailed
  gained := h.gained
  spared hfew _ hv hfailed _ _ hx hvolume := h.spared horderly hfew hv hfailed hx hvolume
  states := by
    rw [h.volumes_registry, List.forall₂_map_right_iff, List.forall₂_same]
    intro v hv
    refine ⟨by simp [Volume.key], ?_⟩
    rw [Volume.isFailed_failing, Bool.or_eq_true, h.fails_iff horderly hv]
  crashed _ hf := h.crashed_healthy horderly hf

/-- **Every healthy volume is accounted for once.** From any registry that a node can have, whatever the
catalog, the disk and the check, every interleaving that has come to its end has accounted for the volumes
that were healthy at the beginning, and for no others. So have the scans one after another, and every
interleaving can be brought to its end. -/
theorem recovery_accounts {roots : List FilePath} (n : Node) (h : n.registry.Reached roots)
    (view : DiskView) (check : StructureCheck) :
    (∀ r, Interleaving view check (.start n) r → r.Ended → Accounted n r.node r.report) ∧
    Accounted n (n.run view check).2.1 (n.run view check).1 ∧
    ∀ r, Interleaving view check (.start n) r → ∃ r', Interleaving view check r r' ∧ r'.Ended := by
  have haccounted : ∀ r, Interleaving view check (.start n) r → r.Ended →
      Accounted n r.node r.report := fun r hr hended =>
    (Tracks.of_interleaving h.orderly hr).accounted h.orderly hended
  refine ⟨haccounted, ?_, fun r _ => exists_ended view check r⟩
  obtain ⟨r, hr, hended, hnode, hreport⟩ := exists_run n view check
  rw [← hnode, ← hreport]
  exact haccounted r hr hended

/-- A recovery of three volumes: the check crashes on the container of the first one, the second one has
failed beforehand, and the third one is not there. -/
theorem recovery_accounts_trio :
    let n : Node := { registry := ((Registry.empty.registerAll
      [trioRoot "u", trioRoot "w", trioRoot "x"]).1.fail (trioRoot "w")).1 }
    n.registry.Reached [trioRoot "x", trioRoot "w", trioRoot "u"] ∧
      n.registry.healthy.map (·.key) = [(0, trioRoot "u"), (2, trioRoot "x")] ∧
      Accounted n (n.run trio.view (.special (some 5) none)).2.1
        (n.run trio.view (.special (some 5) none)).1 := by
  intro n
  have hreached : n.registry.Reached [trioRoot "x", trioRoot "w", trioRoot "u"] :=
    (Registry.Reached.empty.registerAll [trioRoot "u", trioRoot "w", trioRoot "x"]).fail (trioRoot "w")
  obtain ⟨-, haccounted, -⟩ :=
    recovery_accounts n hreached trio.view (.special (some 5) none)
  exact ⟨hreached, by decide +kernel, haccounted⟩

end Node

end StorageNode
