import StorageNode.Proofs.Catalog
import StorageNode.Proofs.Scan

/-!
# The insertions of a scan

A scan tries to insert the containers that it would load, one at a time, as it comes to their directories
(`Scan.insertions`). This is all that it does to the catalog (`Scan.insertsAll_run`), whether it comes to
its end or not, and a scan that comes to its end reports all of it: the attempts that succeeded are what it
lists as loaded, and those that did not are the duplicates among what it lists as skipped
(`Scan.insertions_of_report`).

Every attempt is for the container of a directory on the walk (`Scan.exists_of_mem_insertions`), so what a
scan adds to the catalog has been read there.
-/

namespace StorageNode

namespace Loading

/-! ## Attempts to load -/

/-- Reading what is in a directory refuses nothing as a duplicate; only the catalog does. -/
theorem refusal?_validate (l : Loading) (d : Descriptor) (paths : ContainerPaths) :
    (l.validate d paths).refusal? = none := by
  unfold validate
  split
  · rfl
  split
  · rfl
  · split <;> rfl

theorem refusal?_examine (l : Loading) (id : ContainerId) (dir : FilePath) :
    (l.examine id dir).refusal? = none := by
  simp only [examine, examineFile]
  split
  · rfl
  split
  · rfl
  split
  · rfl
  split
  · rfl
  split
  · rfl
  · exact refusal?_validate l _ _

end Loading

/-- Why a container was skipped, if it was for a duplicate. -/
def SkippedContainer.refusal? (s : SkippedContainer) : Option DuplicateContainer :=
  match s.cause with
  | .duplicate e => some e
  | _ => none

namespace Scan

open Catalog (Insertion)

/-! ## The insertions of a walk -/

/-- The attempt to insert at a stop. -/
def insertionsAt (l : Loading) (c : Catalog) : Stop → List Insertion
  | .unreadableGroup .. => []
  | .candidate dir =>
    match containerId? dir with
    | none => []
    | some id => (l.examine id dir).insertions c

/-- The attempts to insert at stops up to the last one that is visited. -/
def insertionsAlong (l : Loading) (c : Catalog) : List Stop → List Insertion
  | [] => []
  | stop :: rest =>
    insertionsAt l c stop ++
      if (visit l c stop).1.isLast then [] else insertionsAlong l (visit l c stop).2.1 rest

/-- **The attempts to insert that a scan makes.** -/
def insertions (s : Scan) (c : Catalog) : List Insertion :=
  match s.cluster with
  | .error _ => []
  | .ok dir =>
    match stops s.view (dir / Layout.currentName) with
    | .error _ => []
    | .ok ss => insertionsAlong s.toLoading c ss

section

variable {l : Loading} {c : Catalog} {stop : Stop}

theorem insertionsAlong_of_last (rest : List Stop) (h : (visit l c stop).1.isLast = true) :
    insertionsAlong l c (stop :: rest) = insertionsAt l c stop := by
  rw [insertionsAlong, if_pos h, List.append_nil]

theorem insertionsAlong_of_not_last (rest : List Stop) (h : (visit l c stop).1.isLast = false) :
    insertionsAlong l c (stop :: rest) =
      insertionsAt l c stop ++ insertionsAlong l (visit l c stop).2.1 rest := by
  rw [insertionsAlong, h, if_neg Bool.false_ne_true]

theorem insertionsAt_malformed {dir : FilePath} (h : containerId? dir = none) :
    insertionsAt l c (.candidate dir) = [] := by
  rw [insertionsAt, h]

theorem insertionsAt_candidate {dir : FilePath} {id : ContainerId} (h : containerId? dir = some id) :
    insertionsAt l c (.candidate dir) = (l.examine id dir).insertions c := by
  rw [insertionsAt, h]

/-- **A visit does nothing else to the catalog.** -/
theorem insertsAll_visit (l : Loading) (c : Catalog) (stop : Stop) :
    c.InsertsAll (insertionsAt l c stop) (visit l c stop).2.1 := by
  cases stop with
  | unreadableGroup dir cause => exact .nil c
  | candidate dir =>
      cases hid : containerId? dir with
      | none =>
          rw [insertionsAt_malformed hid, visit_malformed hid]
          exact .nil c
      | some id =>
          rw [insertionsAt_candidate hid, (visit_candidate hid c).2]
          exact Attempt.insertsAll_admit rfl

/-- Along the visits, the catalog changes by the attempts to insert. -/
theorem insertsAll_visitAll (l : Loading) (c : Catalog) (ss : List Stop) :
    c.InsertsAll (insertionsAlong l c ss) (visitAll l c ss).2.1 := by
  induction ss generalizing c with
  | nil => exact .nil c
  | cons stop ss ih =>
      have hvisit := insertsAll_visit l c stop
      cases hlast : (visit l c stop).1.isLast with
      | true =>
          rw [visitAll_of_last ss hlast, insertionsAlong_of_last ss hlast]
          exact hvisit
      | false =>
          rw [visitAll_of_not_last ss hlast, insertionsAlong_of_not_last ss hlast]
          exact hvisit.append (ih _)

/-- Whether it crashes or not, a scan leaves the catalog behind its visits. -/
theorem catalog_walk (s : Scan) (c : Catalog) (r : Registry) (ss : List Stop) :
    (s.walk c r ss).catalog = (visitAll s.toLoading c ss).2.1 := by
  unfold walk
  dsimp only
  split <;> rfl

/-- **A scan changes the catalog by its attempts to insert**, and by nothing else. -/
theorem insertsAll_run (s : Scan) (c : Catalog) (r : Registry) :
    c.InsertsAll (s.insertions c) (s.run c r).catalog := by
  cases hcluster : s.cluster with
  | error fault =>
      rw [run_of_fault hcluster, insertions, hcluster]
      exact .nil c
  | ok cluster =>
      cases hstops : stops s.view (cluster / Layout.currentName) with
      | error e =>
          rw [run_of_unreadable hcluster hstops]
          simp only [insertions, hcluster, hstops]
          exact .nil c
      | ok ss =>
          simp only [run, insertions, hcluster, hstops, catalog_walk]
          exact insertsAll_visitAll s.toLoading c ss

/-! ## Where the containers come from -/

theorem exists_of_mem_insertionsAt {i : Insertion} (h : i ∈ insertionsAt l c stop) :
    ∃ dir id, stop = .candidate dir ∧ containerId? dir = some id ∧
      l.examine id dir = .loaded i.container := by
  cases stop with
  | unreadableGroup dir cause => exact absurd h List.not_mem_nil
  | candidate dir =>
      cases hid : containerId? dir with
      | none =>
          rw [insertionsAt_malformed hid] at h
          exact absurd h List.not_mem_nil
      | some id =>
          rw [insertionsAt_candidate hid] at h
          cases hexamine : l.examine id dir with
          | loaded x =>
              rw [hexamine] at h
              obtain rfl := List.mem_singleton.mp h
              exact ⟨dir, id, rfl, hid, hexamine⟩
          | skipped | crashed =>
              rw [hexamine] at h
              exact absurd h List.not_mem_nil

theorem exists_of_mem_insertionsAlong {ss : List Stop} {i : Insertion}
    (h : i ∈ insertionsAlong l c ss) :
    ∃ dir id, .candidate dir ∈ ss ∧ containerId? dir = some id ∧
      l.examine id dir = .loaded i.container := by
  induction ss generalizing c with
  | nil => exact absurd h List.not_mem_nil
  | cons stop ss ih =>
      rw [insertionsAlong, List.mem_append] at h
      rcases h with hhere | hlater
      · obtain ⟨dir, id, rfl, hid, hexamine⟩ := exists_of_mem_insertionsAt hhere
        exact ⟨dir, id, List.mem_cons_self, hid, hexamine⟩
      · split at hlater
        · exact absurd hlater List.not_mem_nil
        · obtain ⟨dir, id, hmem, hid, hexamine⟩ := ih hlater
          exact ⟨dir, id, List.mem_cons_of_mem _ hmem, hid, hexamine⟩

/-- **What a scan tries to insert is read from a directory on its walk.** -/
theorem exists_of_mem_insertions {s : Scan} {i : Insertion} (h : i ∈ s.insertions c) :
    ∃ cluster ss dir id, s.cluster = .ok cluster ∧
      stops s.view (cluster / Layout.currentName) = .ok ss ∧ .candidate dir ∈ ss ∧
      containerId? dir = some id ∧ s.examine id dir = .loaded i.container := by
  unfold insertions at h
  split at h
  · exact absurd h List.not_mem_nil
  next cluster hcluster =>
  split at h
  · exact absurd h List.not_mem_nil
  next ss hstops =>
  obtain ⟨dir, id, hmem, hid, hexamine⟩ := exists_of_mem_insertionsAlong h
  exact ⟨cluster, ss, dir, id, hcluster, hstops, hmem, hid, hexamine⟩

end

/-! ## What a scan reports of them -/

/-- Why the container of a finding was refused. -/
def Finding.refusal? (f : Finding) : Option DuplicateContainer := f.skipped?.bind (·.refusal?)

/-- What was found of attempts to insert: the numbers of those that succeeded, and why the others were
refused. -/
structure Reports (is : List Insertion) (fs : List Finding) : Prop where
  loaded : fs.filterMap Finding.loaded? = (is.filter (·.succeeded)).map (·.container.id)
  refused : fs.filterMap Finding.refusal? = is.filterMap (·.refusal)

section

variable {l : Loading} {c : Catalog}

theorem Reports.append {is js : List Insertion} {fs gs : List Finding} (h : Reports is fs)
    (h' : Reports js gs) : Reports (is ++ js) (fs ++ gs) where
  loaded := by
    rw [List.filterMap_append, List.filter_append, List.map_append, h.loaded, h'.loaded]
  refused := by rw [List.filterMap_append, List.filterMap_append, h.refused, h'.refused]

/-- A visit finds what its attempt to insert comes to. -/
theorem reports_visit (l : Loading) (c : Catalog) (stop : Stop) :
    Reports (insertionsAt l c stop) [(visit l c stop).1] := by
  cases stop with
  | unreadableGroup dir cause => exact ⟨rfl, rfl⟩
  | candidate dir =>
      cases hid : containerId? dir with
      | none =>
          rw [insertionsAt_malformed hid, visit_malformed hid]
          exact ⟨rfl, rfl⟩
      | some id =>
          rw [insertionsAt_candidate hid, (visit_candidate hid c).1, Loading.attempt]
          cases hexamine : l.examine id dir with
          | crashed => exact ⟨rfl, rfl⟩
          | skipped cause =>
              have hnone := Loading.refusal?_examine l id dir
              rw [hexamine] at hnone
              refine ⟨rfl, ?_⟩
              cases cause with
              | duplicate e => cases hnone
              | _ => rfl
          | loaded x =>
              obtain ⟨rfl, -⟩ := Loading.loaded_of_examine hexamine
              cases hold : c.get? x.id with
              | some old =>
                  rw [Attempt.insertions, Catalog.admit_of_some hold]
                  exact ⟨rfl, rfl⟩
              | none =>
                  obtain ⟨c', htakes, -⟩ := Catalog.admit_of_none hold
                  rw [Attempt.insertions, htakes]
                  exact ⟨rfl, rfl⟩

theorem reports_visitAll (l : Loading) (c : Catalog) (ss : List Stop) :
    Reports (insertionsAlong l c ss) (visitAll l c ss).1 := by
  induction ss generalizing c with
  | nil => exact ⟨rfl, rfl⟩
  | cons stop ss ih =>
      have hvisit := reports_visit l c stop
      cases hlast : (visit l c stop).1.isLast with
      | true =>
          rw [visitAll_of_last ss hlast, insertionsAlong_of_last ss hlast]
          exact hvisit
      | false =>
          rw [visitAll_of_not_last ss hlast, insertionsAlong_of_not_last ss hlast]
          exact hvisit.append (ih _)

/-- **A report lists what became of the attempts to insert.** -/
theorem insertions_of_report {s : Scan} {r : Registry} {report : ScanReport}
    (h : (s.run c r).report = some report) :
    report.loaded = ((s.insertions c).filter (·.succeeded)).map (·.container.id) ∧
      report.skipped.filterMap (·.refusal?) = (s.insertions c).filterMap (·.refusal) := by
  cases hcluster : s.cluster with
  | error fault =>
      rw [run_of_fault hcluster] at h
      obtain rfl := Option.some.inj h
      rw [insertions, hcluster]
      exact ⟨rfl, rfl⟩
  | ok cluster =>
      cases hstops : stops s.view (cluster / Layout.currentName) with
      | error e =>
          rw [run_of_unreadable hcluster hstops] at h
          obtain rfl := Option.some.inj h
          simp only [insertions, hcluster, hstops]
          exact ⟨rfl, rfl⟩
      | ok ss =>
          simp only [run, hcluster, hstops, walk] at h
          split at h
          · cases h
          obtain rfl := Option.some.inj h
          have hreports := reports_visitAll s.toLoading c ss
          simp only [insertions, hcluster, hstops, loaded_report, skipped_report]
          refine ⟨hreports.loaded, ?_⟩
          rw [List.filterMap_filterMap]
          exact hreports.refused

end

end Scan

end StorageNode
