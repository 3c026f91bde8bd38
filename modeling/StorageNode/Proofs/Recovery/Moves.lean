import StorageNode.Proofs.Recovery.Interleaving

/-!
# What one step of a recovery does

`Node.Task.Moves` lists all that a step of a worker can do to the worker and to the node, one constructor
for each case. Most steps leave the node as it is: a step touches the registry only where the volume fails,
and the catalog only where a container is loaded. `Node.Recovering.Step.moves` says that every step of a
recovery is such a step of one of its workers, so that what is kept by the moves is kept along every
interleaving.

The scans one after another are themselves an interleaving that has come to its end
(`Node.exists_run`). What holds of all interleavings holds of `Node.run`.
-/

namespace StorageNode

namespace Node

open Scan (Stop Finding)

namespace Task

/-- **What a step of a worker can do**: from how far it is to how far it gets, and the node behind the
step. -/
inductive Moves (s : Scan) (n : Node) : Task → Task → Node → Prop
  /-- The root holds no cluster of its own, and the volume fails. -/
  | fails {fault : VolumeFault} (h : s.cluster = .error fault) :
      Moves s n .ready (.finished (some { s.report [] with failure := some fault }))
        { n with registry := (n.registry.fail s.root).1 }
  | unlisted {cluster : FilePath} {e : DiskError} (hcluster : s.cluster = .ok cluster)
      (h : Scan.stops s.view (cluster / Layout.currentName) = .error e) :
      Moves s n .ready (.finished (some (s.report []))) n
  | starts {cluster : FilePath} {ss : List Stop} (hcluster : s.cluster = .ok cluster)
      (h : Scan.stops s.view (cluster / Layout.currentName) = .ok ss) :
      Moves s n .ready (.walking ss []) n
  | ends (found : List Finding) : Moves s n (.walking [] found) (.finished (some (s.report found))) n
  /-- The container is taken into the catalog. -/
  | loads {dir : FilePath} {id : ContainerId} {x : Container} {c' : Catalog} (ahead : List Stop)
      (found : List Finding) (hid : Scan.containerId? dir = some id)
      (h : s.examine id dir = .loaded x) (hg : n.catalog.Gains x c') :
      Moves s n (.walking (.candidate dir :: ahead) found)
        (.walking ahead (found ++ [.loaded id x.state])) { n with catalog := c' }
  /-- Nothing is loaded, and the walk goes on. -/
  | passes {f : Finding} (stop : Stop) (ahead : List Stop) (found : List Finding)
      (h : f.loaded? = none) : Moves s n (.walking (stop :: ahead) found) (.walking ahead (found ++ [f])) n
  | stopped (dir : FilePath) (ahead : List Stop) (found : List Finding) :
      Moves s n (.walking (.candidate dir :: ahead) found)
        (.finished (some (s.report (found ++ [.malformedName dir])))) n
  | crashes {dir : FilePath} {id : ContainerId} (ahead : List Stop) (found : List Finding)
      (h : s.examine id dir = .crashed) :
      Moves s n (.walking (.candidate dir :: ahead) found) (.finished none) n

variable {s : Scan}

/-- A visit moves the walk on, or ends it. -/
theorem moves_visit (stop : Stop) (ahead : List Stop) (found : List Finding) (n : Node) :
    Moves s n (.walking (stop :: ahead) found) (behind s ahead found (visit s.toLoading stop n).1)
      (visit s.toLoading stop n).2 := by
  cases stop with
  | unreadableGroup dir cause => exact .passes _ ahead found rfl
  | candidate dir =>
      cases hid : Scan.containerId? dir with
      | none =>
          rw [visit_of_none hid]
          exact .stopped dir ahead found
      | some id =>
          rw [visit_of_some hid]
          cases hexamine : s.examine id dir with
          | skipped cause => exact .passes _ ahead found rfl
          | crashed => exact .crashes ahead found hexamine
          | loaded x =>
              cases hold : n.catalog.get? x.id with
              | some old =>
                  rw [take_of_some hold]
                  exact .passes _ ahead found rfl
              | none =>
                  obtain ⟨c', htakes, hg⟩ := take_of_none hold
                  rw [htakes]
                  exact .loads ahead found hid hexamine hg

/-- **A step of a worker does one of these.** -/
theorem moves_advance {t : Task} (h : ¬ t.Done) (n : Node) :
    Moves s n t (t.advance s n).1 (t.advance s n).2 := by
  cases t with
  | finished r => exact absurd ⟨r, rfl⟩ h
  | ready =>
      cases hcluster : s.cluster with
      | error fault =>
          simp only [advance, hcluster]
          exact .fails hcluster
      | ok dir =>
          cases hstops : Scan.stops s.view (dir / Layout.currentName) with
          | error e =>
              simp only [advance, hcluster, hstops]
              exact .unlisted hcluster hstops
          | ok ss =>
              simp only [advance, hcluster, hstops]
              exact .starts hcluster hstops
  | walking ahead found =>
      cases ahead with
      | nil => exact .ends found
      | cons stop ahead => exact moves_visit stop ahead found n

/-- The containers that a worker has loaded so far. A worker that has crashed leaves no list. -/
def listed : Task → List ContainerId
  | .ready => []
  | .walking _ found => found.filterMap Finding.loaded?
  | .finished none => []
  | .finished (some rep) => rep.loaded

/-- **A step takes one container into the catalog, which the worker lists**, or changes neither. -/
theorem Moves.listed {n n' : Node} {t t' : Task} (h : Moves s n t t' n') :
    (n'.catalog = n.catalog ∧ (t'.listed = t.listed ∨ t' = .finished none)) ∨
      ∃ x, x.volume = s.volume ∧ n.catalog.Gains x n'.catalog ∧ t'.listed = t.listed ++ [x.id] := by
  cases h with
  | fails | unlisted | starts | ends => exact .inl ⟨rfl, .inl rfl⟩
  | crashes => exact .inl ⟨rfl, .inr rfl⟩
  | @passes f _ _ found h =>
      refine .inl ⟨rfl, .inl ?_⟩
      simp [Task.listed, h]
  | stopped dir _ found =>
      refine .inl ⟨rfl, .inl ?_⟩
      simp [Task.listed, Scan.loaded_report, Finding.loaded?]
  | @loads dir id x _ _ found _ h hg =>
      obtain ⟨rfl, hvolume⟩ := Loading.loaded_of_examine h
      refine .inr ⟨x, hvolume, hg, ?_⟩
      simp [Task.listed, Finding.loaded?]

/-- With a check that comes to a verdict, no worker crashes. -/
theorem Moves.ne_crashed (hcheck : s.check.NeverCrashes) {n n' : Node} {t t' : Task}
    (h : Moves s n t t' n') : t' ≠ .finished none := by
  cases h with
  | crashes _ _ h => exact absurd h (Loading.examine_ne_crashed hcheck _ _)
  | _ => simp

end Task

open Recovering

variable {view : DiskView} {check : StructureCheck}

/-- **A step of a recovery is a step of one of the workers.** -/
theorem Recovering.Step.moves {r r' : Recovering} (h : Step view check r r') :
    ∃ before behind v t t' n n', r = ⟨n, before ++ (v, t) :: behind⟩ ∧
      r' = ⟨n', before ++ (v, t') :: behind⟩ ∧ Task.Moves (scanning view check v) n t t' n' := by
  cases h with
  | @mk before behind v t n h => exact ⟨before, behind, v, t, _, n, _, rfl, rfl, Task.moves_advance h n⟩

section

variable {before behind : List (Volume × Task)} {v : Volume} {t t' : Task}

/-- What holds of all workers holds of them behind a step if it is kept by the one and the others. -/
theorem forall_workers {I I' : Volume × Task → Prop} (h : ∀ w ∈ before ++ (v, t) :: behind, I w)
    (hown : I (v, t) → I' (v, t')) (hothers : ∀ w ∈ before ++ behind, I w → I' w) :
    ∀ w ∈ before ++ (v, t') :: behind, I' w := by
  simp only [List.forall_mem_append, List.forall_mem_cons] at h hothers ⊢
  exact ⟨fun w hw => hothers.1 w hw (h.1 w hw), hown h.2.1, fun w hw => hothers.2 w hw (h.2.2 w hw)⟩

/-- A step is taken by a worker for the same volume. -/
theorem map_fst_workers : (before ++ (v, t') :: behind).map (·.1) =
    (before ++ (v, t) :: behind).map (·.1) := by simp

end

/-! ## The scans one after another -/

/-- A worker may work until it has come to its end, while the others wait. -/
theorem interleaving_finish (before behind : List (Volume × Task)) (v : Volume) (t : Task) (n : Node) :
    Interleaving view check ⟨n, before ++ (v, t) :: behind⟩
      ⟨(t.finish (scanning view check v) n).2,
        before ++ (v, .finished (t.finish (scanning view check v) n).1) :: behind⟩ := by
  induction hk : t.remaining (scanning view check v) using Nat.strongRecOn generalizing t n with
  | ind k ih =>
      by_cases hdone : t.Done
      · obtain ⟨rep, rfl⟩ := hdone
        exact .refl
      · have hrest := ih _ (hk ▸ Task.remaining_advance hdone n)
          (t.advance (scanning view check v) n).1 (t.advance (scanning view check v) n).2 rfl
        rw [Task.finish_advance] at hrest
        exact .head (.mk n hdone) hrest

/-- The workers may work one after another. -/
theorem interleaving_finishAll (ws done : List (Volume × Task)) (n : Node) :
    ∃ ws', Interleaving view check ⟨n, done ++ ws⟩ ⟨(finishAll view check n ws).2, done ++ ws'⟩ ∧
      (∀ w ∈ ws', w.2.Done) ∧ ws'.filterMap result? = (finishAll view check n ws).1 := by
  induction ws generalizing done n with
  | nil => exact ⟨[], .refl, by simp, rfl⟩
  | cons w ws ih =>
      obtain ⟨v, t⟩ := w
      obtain ⟨rep, n', hfinish⟩ : ∃ rep n', t.finish (scanning view check v) n = (rep, n') :=
        ⟨_, _, rfl⟩
      have hfirst := @interleaving_finish view check done ws v t n
      obtain ⟨ws', hrest, hdone, hresults⟩ := ih (done ++ [(v, .finished rep)]) n'
      rw [List.append_assoc, List.append_assoc] at hrest
      simp only [hfinish] at hfirst
      refine ⟨(v, .finished rep) :: ws', ?_, List.forall_mem_cons.mpr ⟨⟨rep, rfl⟩, hdone⟩, ?_⟩
      · simp only [finishAll, hfinish]
        exact hfirst.trans hrest
      · simp only [finishAll, hfinish]
        rw [← hresults]
        rfl

/-- The node in the end is that of the scans of the healthy volumes. -/
theorem run_node (n : Node) (view : DiskView) (check : StructureCheck) :
    (n.run view check).2.1 = (n.workAll view check n.registry.healthy).2.1 := rfl

/-- **The scans one after another are an interleaving.** -/
theorem exists_run (n : Node) (view : DiskView) (check : StructureCheck) :
    ∃ r, Interleaving view check (.start n) r ∧ r.Ended ∧ r.node = (n.run view check).2.1 ∧
      r.report = (n.run view check).1 := by
  obtain ⟨ws, hr, hended, hresults⟩ :=
    @interleaving_finishAll view check (start n).workers [] n
  simp only [List.nil_append, start, finishAll_ready] at hr hresults
  exact ⟨_, hr, hended, rfl, congrArg collect hresults⟩

end Node

end StorageNode
