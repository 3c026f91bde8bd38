import Mathlib.Logic.Relation
import StorageNode.Proofs.Recovery.Owners
import StorageNode.Proofs.Recovery.Workers

/-!
# Workers do not disturb each other

A recovery under way is a node that its workers share, and how far each worker is (`Node.Recovering`). In
one step some worker takes its next step; an interleaving is any sequence of steps, from the beginning on.
`Node.run_interleaved` says that if no two volumes share a number, every interleaving that has come to its
end leaves the node and the report that are left when the volumes are scanned one after another, in their
order or in any other.

The argument finishes the work from wherever the recovery is, one worker after the other in the order of
the volumes (`Node.finishAll`). A step does not change what this comes to (`Node.finishAll_advance`): the
worker that takes it is brought past those before it, since their work is on other numbers. At the
beginning it comes to the scans one after another, and at the end there is nothing left to finish.
-/

namespace StorageNode

namespace Node

/-- The numbers of the directories that the scan of a volume processes. -/
def numbers (view : DiskView) (v : Volume) (id : ContainerId) : Prop :=
  ∃ dir, Scan.Processes view v.root dir id

/-- No number is that of a directory on both volumes. -/
def Apart (view : DiskView) (u v : Volume) : Prop :=
  ∀ id, numbers view u id → ¬ numbers view v id

theorem Apart.symm {view : DiskView} {u v : Volume} (h : Apart view u v) : Apart view v u :=
  fun id hv hu => h id hu hv

/-- **A recovery under way**: what the workers share, and how far the worker of each volume is, in the
order in which the volumes were registered. -/
structure Recovering where
  node : Node
  workers : List (Volume × Task)

namespace Recovering

/-- A recovery starts with a worker for each volume that is healthy. -/
def start (n : Node) : Recovering := ⟨n, n.registry.healthy.map (·, .ready)⟩

/-- **A step of a recovery**: some worker that has not come to its end takes its next step. -/
inductive Step (view : DiskView) (check : StructureCheck) : Recovering → Recovering → Prop
  | mk {before behind : List (Volume × Task)} {v : Volume} {t : Task} (n : Node) (h : ¬ t.Done) :
      Step view check ⟨n, before ++ (v, t) :: behind⟩
        ⟨(t.advance (scanning view check v) n).2,
          before ++ (v, (t.advance (scanning view check v) n).1) :: behind⟩

/-- Steps, one after another, of any workers. -/
abbrev Interleaving (view : DiskView) (check : StructureCheck) : Recovering → Recovering → Prop :=
  Relation.ReflTransGen (Step view check)

/-- All workers have come to their ends. -/
def Ended (r : Recovering) : Prop := ∀ w ∈ r.workers, w.2.Done

/-- The result of a worker, once it has come to its end. -/
def result? : Volume × Task → Option WorkerResult
  | (v, .finished r) => some (.ofReport v r)
  | _ => none

/-- The report of a recovery, when the workers have been waited for in the order of their volumes. -/
def report (r : Recovering) : RecoveryReport := collect (r.workers.filterMap result?)

end Recovering

open Recovering

variable {view : DiskView} {check : StructureCheck}

/-! ## Finishing the work -/

/-- The rest of the work of some workers, one after another. -/
def finishAll (view : DiskView) (check : StructureCheck) (n : Node) :
    List (Volume × Task) → List WorkerResult × Node
  | [] => ([], n)
  | (v, t) :: ws =>
    let own := t.finish (scanning view check v) n
    let others := finishAll view check own.2 ws
    (.ofReport v own.1 :: others.1, others.2)

/-- The work of a worker that has not begun is the scan of its volume. -/
theorem work_eq (view : DiskView) (check : StructureCheck) (n : Node) (v : Volume) :
    (n.work view check v).1 = .ofReport v (Task.ready.finish (scanning view check v) n).1 ∧
      (n.work view check v).2.1 = (Task.ready.finish (scanning view check v) n).2 := by
  simp only [work, scan, Task.finish, and_true]
  cases (Scan.run (scanning view check v) n.catalog n.registry).report <;> rfl

/-- If no worker has begun, the volumes are scanned one after another. -/
theorem finishAll_ready (vs : List Volume) (n : Node) :
    finishAll view check n (vs.map (·, .ready)) =
      ((n.workAll view check vs).1, (n.workAll view check vs).2.1) := by
  induction vs generalizing n with
  | nil => rfl
  | cons v vs ih =>
      obtain ⟨hresult, hnode⟩ := work_eq view check n v
      have hcons : ((n.workAll view check (v :: vs)).1, (n.workAll view check (v :: vs)).2.1) =
          ((n.work view check v).1 :: ((n.work view check v).2.1.workAll view check vs).1,
            ((n.work view check v).2.1.workAll view check vs).2.1) := rfl
      rw [hcons, List.map_cons, finishAll, hresult, hnode, ih]

/-- If all workers have come to their ends, there is nothing left to do. -/
theorem finishAll_done {ws : List (Volume × Task)} (h : ∀ w ∈ ws, w.2.Done) (n : Node) :
    finishAll view check n ws = (ws.filterMap result?, n) := by
  induction ws with
  | nil => rfl
  | cons w ws ih =>
      obtain ⟨⟨r, hr⟩, hws⟩ := List.forall_mem_cons.mp h
      obtain ⟨v, t⟩ := w
      obtain rfl : t = .finished r := hr
      simp only [finishAll, Task.finish, ih hws]
      rfl

/-- All workers are within the numbers of their volumes, and these are apart. -/
structure Orderly (view : DiskView) (check : StructureCheck) (ws : List (Volume × Task)) : Prop where
  within : ∀ w ∈ ws, w.2.Within (scanning view check w.1) (numbers view w.1)
  apart : (ws.map (·.1)).Pairwise (Apart view)

theorem within_ready (v : Volume) :
    Task.ready.Within (scanning view check v) (numbers view v) := fun p hp =>
  ⟨p.1, Scan.processes_iff.mpr hp⟩

/-- **A step of one worker does not change what the work comes to.** -/
theorem finishAll_advance {before behind : List (Volume × Task)} {v : Volume} {t : Task}
    (h : Orderly view check (before ++ (v, t) :: behind)) (n : Node) :
    finishAll view check (t.advance (scanning view check v) n).2
        (before ++ (v, (t.advance (scanning view check v) n).1) :: behind) =
      finishAll view check n (before ++ (v, t) :: behind) := by
  induction before generalizing n with
  | nil => simp only [List.nil_append, finishAll, Task.finish_advance]
  | cons w before ih =>
      obtain ⟨u, q⟩ := w
      obtain ⟨hq, hwithin⟩ := List.forall_mem_cons.mp h.within
      obtain ⟨hu, hapart⟩ := List.pairwise_cons.mp h.apart
      have ht : t.Within (scanning view check v) (numbers view v) := hwithin (v, t) (by simp)
      -- the step is brought past the rest of the work of the first worker
      obtain ⟨hresult, htask, hnode⟩ := (Task.local_finish hq).commute (Task.local_advance ht)
        (hu v (by simp)) n
      have hrest := ih ⟨hwithin, hapart⟩ (q.finish (scanning view check u) n).2
      rw [htask] at hrest
      simp only [List.cons_append, finishAll, hresult, hnode, hrest]

/-! ## Interleavings -/

/-- A step leaves the workers where they belong. -/
theorem Orderly.advance {before behind : List (Volume × Task)} {v : Volume} {t : Task}
    (h : Orderly view check (before ++ (v, t) :: behind)) (n : Node) :
    Orderly view check
      (before ++ (v, (t.advance (scanning view check v) n).1) :: behind) where
  within := by
    have hwithin := h.within
    simp only [List.forall_mem_append, List.forall_mem_cons] at hwithin ⊢
    exact ⟨hwithin.1, Task.within_advance hwithin.2.1 n, hwithin.2.2⟩
  apart := by simpa using h.apart

/-- **Along an interleaving, what the work comes to stays the same.** -/
theorem finishAll_interleaving {r r' : Recovering} (h : Interleaving view check r r')
    (hr : Orderly view check r.workers) :
    finishAll view check r'.node r'.workers = finishAll view check r.node r.workers ∧
      Orderly view check r'.workers := by
  induction h with
  | refl => exact ⟨rfl, hr⟩
  | tail _ hstep ih =>
      obtain ⟨hsame, horderly⟩ := ih
      cases hstep with
      | mk n _ => exact ⟨(finishAll_advance horderly n).trans hsame, horderly.advance n⟩

/-- How many steps a recovery still needs. -/
def Recovering.remaining (view : DiskView) (check : StructureCheck) (r : Recovering) : Nat :=
  (r.workers.map fun w => w.2.remaining (scanning view check w.1)).sum

theorem remaining_step {r r' : Recovering} (h : Step view check r r') :
    r'.remaining view check < r.remaining view check := by
  cases h with
  | @mk before behind v t n h =>
      have hlt := Task.remaining_advance (s := scanning view check v) h n
      simp only [Recovering.remaining, List.map_append, List.map_cons, List.sum_append, List.sum_cons]
      omega

/-- **Every recovery can be brought to its end.** -/
theorem exists_ended (view : DiskView) (check : StructureCheck) (r : Recovering) :
    ∃ r', Interleaving view check r r' ∧ r'.Ended := by
  induction hk : r.remaining view check using Nat.strongRecOn generalizing r with
  | ind k ih =>
      by_cases hended : r.Ended
      · exact ⟨r, .refl, hended⟩
      · obtain ⟨n, ws⟩ := r
        obtain ⟨⟨v, t⟩, hw, hdone⟩ : ∃ w ∈ ws, ¬ w.2.Done := by
          simpa [Ended] using hended
        obtain ⟨before, behind, rfl⟩ := List.append_of_mem hw
        have hstep : Step view check ⟨n, before ++ (v, t) :: behind⟩ _ := .mk n hdone
        obtain ⟨r', hr', hended'⟩ := ih _ (hk ▸ remaining_step hstep) _ rfl
        exact ⟨r', .head hstep hr', hended'⟩

/-! ## Any order of the volumes -/

/-- The scan of a volume concerns its numbers. -/
theorem local_work (view : DiskView) (check : StructureCheck) (v : Volume) :
    Local (numbers view v) fun n => ((n.work view check v).1, (n.work view check v).2.1) := by
  have heq : (fun n : Node => ((n.work view check v).1, (n.work view check v).2.1)) = fun n =>
      (.ofReport v (Task.ready.finish (scanning view check v) n).1,
        (Task.ready.finish (scanning view check v) n).2) :=
    funext fun n => Prod.ext (work_eq view check n v).1 (work_eq view check n v).2
  rw [heq]
  exact (Task.local_finish (within_ready v)).map (WorkerResult.ofReport v)

/-- Each scan has the result that it has on its own. -/
theorem workAll_results {vs : List Volume} (h : vs.Pairwise (Apart view)) (n : Node) :
    (n.workAll view check vs).1 = vs.map fun v => (n.work view check v).1 := by
  induction vs generalizing n with
  | nil => rfl
  | cons v vs ih =>
      obtain ⟨hv, hvs⟩ := List.pairwise_cons.mp h
      have hsame : ∀ w ∈ vs, ((n.work view check v).2.1.work view check w).1 =
          (n.work view check w).1 := fun w hw =>
        ((local_work view check w).commute (local_work view check v) (hv w hw).symm n).1
      calc (n.workAll view check (v :: vs)).1
          = (n.work view check v).1 :: ((n.work view check v).2.1.workAll view check vs).1 := rfl
        _ = (n.work view check v).1 ::
              vs.map fun w => ((n.work view check v).2.1.work view check w).1 := by rw [ih hvs]
        _ = (v :: vs).map fun w => (n.work view check w).1 := by
              rw [List.map_cons, List.map_congr_left hsame]

/-- The node in the end is that of the scans one after another. -/
theorem workAll_node (vs : List Volume) (n : Node) :
    (n.workAll view check vs).2.1 = vs.foldl (fun n v => (n.work view check v).2.1) n := by
  induction vs generalizing n with
  | nil => rfl
  | cons v vs ih => exact ih (n.work view check v).2.1

/-- The order of the volumes does not matter for the node in the end. -/
theorem workAll_perm {vs ws : List Volume} (h : vs.Pairwise (Apart view)) (hperm : ws.Perm vs)
    (n : Node) : (n.workAll view check ws).2.1 = (n.workAll view check vs).2.1 := by
  rw [workAll_node, workAll_node]
  refine hperm.foldl_eq' (fun u hu v hv n => ?_) n
  by_cases huv : u = v
  · rw [huv]
  · have : Std.Symm (Apart view) := ⟨fun _ _ => Apart.symm⟩
    have hapart : Apart view v u :=
      (h.forall (hperm.mem_iff.mp hu) (hperm.mem_iff.mp hv) huv).symm
    exact ((local_work view check v).commute (local_work view check u) hapart n).2.2

/-! ## The theorem -/

/-- **Workers do not disturb each other.** If no number is that of a directory on two of the healthy
volumes, every interleaving that has come to its end leaves the node and the report of the scans one after
another, and every interleaving can be brought to its end. In any other order of the volumes, the scans
leave the same node, and each of them has the result that it has on its own. -/
theorem run_interleaved (n : Node) (view : DiskView) (check : StructureCheck)
    (hapart : n.registry.healthy.Pairwise (Apart view)) :
    (∀ r, Interleaving view check (.start n) r → r.Ended →
      r.node = (n.run view check).2.1 ∧ r.report = (n.run view check).1) ∧
    (∀ r, Interleaving view check (.start n) r →
      ∃ r', Interleaving view check r r' ∧ r'.Ended) ∧
    (∀ ws : List Volume, ws.Perm n.registry.healthy →
      (n.workAll view check ws).2.1 = (n.run view check).2.1 ∧
      (n.workAll view check ws).1 = ws.map fun v => (n.work view check v).1) ∧
    (n.run view check).1 =
      collect (n.registry.healthy.map fun v => (n.work view check v).1) := by
  have hstart : Orderly view check (start n).workers := by
    refine ⟨fun w hw => ?_, by simpa [start, Function.comp_def] using hapart⟩
    obtain ⟨v, -, rfl⟩ := List.mem_map.mp hw
    exact within_ready v
  have hrun : (n.run view check).1 = collect (n.workAll view check n.registry.healthy).1 := rfl
  refine ⟨fun r hr hended => ?_, fun r _ => exists_ended view check r, fun ws hws => ⟨?_, ?_⟩, ?_⟩
  · obtain ⟨hsame, -⟩ := finishAll_interleaving hr hstart
    rw [finishAll_done hended, start, finishAll_ready] at hsame
    obtain ⟨hresults, hnode⟩ := Prod.mk.inj hsame
    exact ⟨hnode, (congrArg collect hresults).trans hrun.symm⟩
  · exact workAll_perm hapart hws n
  · exact workAll_results (hapart.perm hws.symm fun h => h.symm) n
  · rw [hrun, workAll_results hapart]

/-- A volume on which one directory is processed has its number only. -/
theorem numbers_eq {v : Volume} {dir : FilePath} {id id' : ContainerId}
    (h : Scan.Processed view v.root [(dir, id)]) (hid : numbers view v id') : id' = id := by
  obtain ⟨dir', hdir'⟩ := hid
  have hmem := Scan.processes_iff (s := scanning view .indexFile v) |>.mp hdir'
  rw [Scan.processed_iff.mp h] at hmem
  exact (Prod.mk.inj (List.mem_singleton.mp hmem)).2

/-- A recovery of two volumes that have a container each. -/
theorem run_interleaved_trio :
    let n : Node := { registry := ⟨[trioVolume 0 "u", trioVolume 1 "w"]⟩ }
    n.registry.healthy.Pairwise (Apart trio.view) ∧
      ∃ r, Interleaving trio.view .indexFile (.start n) r ∧ r.Ended ∧
        r.node = (n.run trio.view .indexFile).2.1 ∧ r.report = (n.run trio.view .indexFile).1 := by
  intro n
  have hapart : n.registry.healthy.Pairwise (Apart trio.view) := by
    refine List.pairwise_pair.mpr fun id hu hw => ?_
    have hfive : Scan.Processed trio.view (trioRoot "u") [(trioHome "u" "5", 5)] :=
      processed_trio (by simp)
    have hsix : Scan.Processed trio.view (trioRoot "w") [(trioHome "w" "6", 6)] :=
      processed_trio (by simp)
    exact absurd ((numbers_eq hfive hu).symm.trans (numbers_eq hsix hw)) (by decide)
  obtain ⟨hends, hcan, -, -⟩ := run_interleaved n trio.view .indexFile hapart
  obtain ⟨r, hr, hended⟩ := hcan _ .refl
  exact ⟨hapart, r, hr, hended, hends r hr hended⟩

end Node

end StorageNode
