import StorageNode.Scan
import StorageNode.Proofs.Disk.Tree
import StorageNode.Proofs.Loading

/-!
# What a walk finds

`Scan.Walks` gives the walk over a volume by rules, one for each thing it can meet: a group that
cannot be read, a directory without a number, which is the last one visited, and a directory with a
number, whose outcome is the one that is decided (`Loading.Decided`). `Scan.run_decides` says that a
scan is such a walk, over what `Scan.stops` lays out, and that for every directory on the way and
whatever the catalog holds by then there is exactly one outcome.

The rules need no crash: `Scan.Walks` speaks of checks that come to a verdict.
-/

namespace StorageNode

namespace Scan

/-! ## Directories and their numbers -/

/-- The number of a directory is read off its name. -/
theorem containerId?_join (parent : FilePath) {name : String} (h : FilePath.IsName name) :
    containerId? (parent / name) = ContainerId.ofName? name := by
  simp [containerId?, FilePath.fileName?_join parent h]

/-- A directory on the walk is found by its name. -/
def Stop.Named : Stop → Prop
  | .unreadableGroup .. => True
  | .candidate dir =>
      ∃ (parent : FilePath) (name : String), FilePath.IsName name ∧ dir = parent / name

/-- A directory on the walk is a sub-directory of a group. -/
theorem exists_group_of_mem_stops {v : DiskView} {current dir : FilePath} {ss : List Stop}
    (h : stops v current = .ok ss) (hdir : .candidate dir ∈ ss) :
    ∃ groups group ds, v.subdirectories current = .ok groups ∧ group ∈ groups ∧
      v.subdirectories group = .ok ds ∧ dir ∈ ds := by
  cases hgroups : v.subdirectories current with
  | error e => simp [stops, hgroups, Except.map] at h
  | ok groups =>
      obtain rfl : groups.flatMap (stopsIn v) = ss := by simpa [stops, hgroups, Except.map] using h
      obtain ⟨group, hgroup, hmem⟩ := List.mem_flatMap.mp hdir
      cases hsub : v.subdirectories group with
      | error e => simp [stopsIn, hsub] at hmem
      | ok ds =>
          have hds : dir ∈ ds := by simpa [stopsIn, hsub] using hmem
          exact ⟨groups, group, ds, rfl, hgroup, hsub, hds⟩

/-- All directories on the walk are found by their names. -/
theorem named_of_mem_stops {v : DiskView} (hv : v.WellNamed) {current : FilePath}
    {ss : List Stop} (h : stops v current = .ok ss) {stop : Stop} (hmem : stop ∈ ss) :
    stop.Named := by
  cases stop with
  | unreadableGroup group e => trivial
  | candidate dir =>
      obtain ⟨_, group, _, -, -, hsub, hds⟩ := exists_group_of_mem_stops h hmem
      obtain ⟨name, hname, heq, -⟩ := DiskView.exists_name_of_mem_subdirectories hv hsub hds
      exact ⟨group, name, hname, heq⟩

/-! ## The walk by rules -/

/-- What a scan says of the directory of a container whose loading has ended. -/
def finding (id : ContainerId) (dir : FilePath) : Attempt → Finding
  | .loaded x => .loaded id x.state
  | .skipped cause => .skipped ⟨id, dir, cause⟩
  | .crashed => .crashed

/-- **The walk**: from a catalog and what lies ahead, to what is found and the catalog at the end. -/
inductive Walks (l : Loading) : Catalog → List Stop → List Finding → Catalog → Prop
  | done (c : Catalog) : Walks l c [] [] c
  /-- A group that cannot be read is passed over. -/
  | unreadable {c c' : Catalog} {dir : FilePath} {cause : DiskError} {ss : List Stop}
      {fs : List Finding} (h : Walks l c ss fs c') :
      Walks l c (.unreadableGroup dir cause :: ss) (.unreadableGroup dir cause :: fs) c'
  /-- A directory without a number is the last one. -/
  | malformed {dir : FilePath} (c : Catalog) (ss : List Stop) (h : containerId? dir = none) :
      Walks l c (.candidate dir :: ss) [.malformedName dir] c
  /-- A directory with a number has the outcome that is decided. -/
  | candidate {c c₁ c' : Catalog} {dir : FilePath} {id : ContainerId} {a : Attempt}
      {ss : List Stop} {fs : List Finding} (hid : containerId? dir = some id)
      (ha : l.Decided dir id c a c₁) (h : Walks l c₁ ss fs c') :
      Walks l c (.candidate dir :: ss) (finding id dir a :: fs) c'

section

variable {l : Loading}

/-- Nothing but a crash ends a walk at a directory with a number. -/
theorem finding_of_ne_crashed {a : Attempt} (h : a ≠ .crashed) (id : ContainerId) (dir : FilePath) :
    (finding id dir a).isLast = false ∧ finding id dir a ≠ .crashed := by
  cases a with
  | crashed => exact absurd rfl h
  | _ => exact ⟨rfl, Finding.noConfusion⟩

/-- An outcome that is decided is no crash. -/
theorem finding_of_decided {dir : FilePath} {id : ContainerId} {c c' : Catalog} {a : Attempt}
    (h : l.Decided dir id c a c') :
    (finding id dir a).isLast = false ∧ finding id dir a ≠ .crashed := by
  refine finding_of_ne_crashed ?_ id dir
  rcases h.gains_or_eq with ⟨x, rfl, -⟩ | ⟨cause, rfl, -⟩
  all_goals exact Attempt.noConfusion

theorem Walks.not_crashed {c c' : Catalog} {ss : List Stop} {fs : List Finding}
    (h : Walks l c ss fs c') : .crashed ∉ fs := by
  induction h with
  | done => exact List.not_mem_nil
  | unreadable _ ih => exact List.not_mem_cons_of_ne_of_not_mem Finding.noConfusion ih
  | malformed c ss h => simp
  | candidate _ ha _ ih =>
      exact List.not_mem_cons_of_ne_of_not_mem (finding_of_decided ha).2.symm ih

/-- A visit to a directory without a number leaves the catalog. -/
theorem visit_malformed {dir : FilePath} (h : containerId? dir = none) (c : Catalog) :
    visit l c (.candidate dir) = (.malformedName dir, c, []) := by
  rw [visit, h]

/-- A visit to a directory with a number takes its outcome into the catalog. -/
theorem visit_candidate {dir : FilePath} {id : ContainerId} (h : containerId? dir = some id)
    (c : Catalog) :
    (visit l c (.candidate dir)).1 = finding id dir (l.attempt c id dir).1 ∧
      (visit l c (.candidate dir)).2.1 = (l.attempt c id dir).2 := by
  simp only [visit, h, Loading.attempt]
  rcases c.admit (l.examine id dir) with ⟨_ | _ | _, c', es⟩ <;> exact ⟨rfl, rfl⟩

/-- **What a visit to a directory with a number comes to**: a container is loaded and the catalog tells of the
insertion, or nothing is inserted and the catalog has nothing to tell. -/
theorem visit_numbered {dir : FilePath} {id : ContainerId} (h : containerId? dir = some id)
    (c : Catalog) :
    (∃ x c', visit l c (.candidate dir) =
        (.loaded id x.state, c', [.containerInserted l.volume id]) ∧
      x.id = id ∧ x.volume = l.volume ∧ c.Gains x c') ∨
    (∃ cause, visit l c (.candidate dir) = (.skipped ⟨id, dir, cause⟩, c, [])) ∨
    visit l c (.candidate dir) = (.crashed, c, []) := by
  simp only [visit, h]
  cases hexamine : l.examine id dir with
  | crashed => exact .inr (.inr rfl)
  | skipped cause => exact .inr (.inl ⟨cause, rfl⟩)
  | loaded x =>
      obtain ⟨rfl, hvolume⟩ := Loading.loaded_of_examine hexamine
      cases hold : c.get? x.id with
      | some old =>
          simp only [Catalog.admit_of_some hold]
          exact .inr (.inl ⟨_, rfl⟩)
      | none =>
          obtain ⟨c', htakes, hg⟩ := Catalog.admit_of_none hold
          simp only [htakes, Catalog.inserted, hvolume]
          exact .inl ⟨x, c', rfl, rfl, hvolume, hg⟩

/-- A last visit is the last. -/
theorem visitAll_of_last {c : Catalog} {stop : Stop} (rest : List Stop)
    (h : (visit l c stop).1.isLast = true) :
    visitAll l c (stop :: rest) = ([(visit l c stop).1], (visit l c stop).2.1,
      (visit l c stop).2.2 ++ (visit l c stop).1.events l.volume) := by
  simp [visitAll, h]

/-- After any other visit the rest follows, from the catalog behind it. -/
theorem visitAll_of_not_last {c : Catalog} {stop : Stop} (rest : List Stop)
    (h : (visit l c stop).1.isLast = false) :
    visitAll l c (stop :: rest) =
      ((visit l c stop).1 :: (visitAll l (visit l c stop).2.1 rest).1,
        (visitAll l (visit l c stop).2.1 rest).2.1,
        (visit l c stop).2.2 ++ (visit l c stop).1.events l.volume ++
          (visitAll l (visit l c stop).2.1 rest).2.2) := by
  simp [visitAll, h]

/-- The visits are a walk by the rules. -/
theorem walks_visitAll (hcheck : l.check.NeverCrashes) :
    ∀ {ss : List Stop} (c : Catalog), (∀ stop ∈ ss, stop.Named) →
      Walks l c ss (visitAll l c ss).1 (visitAll l c ss).2.1
  | [], c, _ => .done c
  | .unreadableGroup dir cause :: ss, c, h => by
      rw [visitAll_of_not_last ss rfl]
      exact .unreadable (walks_visitAll hcheck c fun stop hs => h stop (List.mem_cons_of_mem _ hs))
  | .candidate dir :: ss, c, h => by
      cases hid : containerId? dir with
      | none =>
          have hvisit := visit_malformed (l := l) hid c
          rw [visitAll_of_last ss (by rw [hvisit]; rfl), hvisit]
          exact .malformed c ss hid
      | some id =>
          obtain ⟨hfinding, hcatalog⟩ := visit_candidate (l := l) hid c
          obtain ⟨parent, name, hname, rfl⟩ := h _ List.mem_cons_self
          have ha : l.Decided (parent / name) id c (l.attempt c id (parent / name)).1
              (l.attempt c id (parent / name)).2 := (Loading.decided_iff hcheck hname).mpr rfl
          rw [visitAll_of_not_last ss (by rw [hfinding]; exact (finding_of_decided ha).1),
            hfinding, hcatalog]
          exact .candidate hid ha
            (walks_visitAll hcheck _ fun stop hs => h stop (List.mem_cons_of_mem _ hs))

end

/-! ## The scan -/

section

variable {s : Scan} {c : Catalog} {r : Registry}

/-- A scan finds its cluster if that is the only directory in the root. -/
theorem cluster_eq_ok_iff {cluster : FilePath} :
    s.cluster = .ok cluster ↔ s.view.subdirectories s.root = .ok [cluster] := by
  unfold Scan.cluster
  split <;> simp_all

/-- A scan without a cluster fails the volume. -/
theorem run_of_fault {fault : VolumeFault} (h : s.cluster = .error fault) :
    s.run c r = ⟨some { s.report [] with failure := some fault }, c, (r.fail s.root).1,
      .volumeInvalid s.volume fault s.root :: (r.fail s.root).2⟩ := by
  rw [run, h]

/-- A scan that cannot list the groups finds nothing. -/
theorem run_of_unreadable {cluster : FilePath} {e : DiskError} (hcluster : s.cluster = .ok cluster)
    (h : stops s.view (cluster / Layout.currentName) = .error e) :
    s.run c r = ⟨some (s.report []), c, r,
      [.currentUnreadable s.volume (cluster / Layout.currentName) e]⟩ := by
  rw [run, hcluster]
  simp only [h]

/-- A scan that finds its cluster and can list its groups reports what the visits find. -/
theorem run_of_stops {cluster : FilePath} {ss : List Stop} (hcluster : s.cluster = .ok cluster)
    (hstops : stops s.view (cluster / Layout.currentName) = .ok ss)
    (h : .crashed ∉ (visitAll s.toLoading c ss).1) :
    s.run c r = ⟨some (s.report (visitAll s.toLoading c ss).1), (visitAll s.toLoading c ss).2.1, r,
      (visitAll s.toLoading c ss).2.2 ++ [summary (s.report (visitAll s.toLoading c ss).1)]⟩ := by
  simp [run, hcluster, hstops, walk, h]

/-- Every walk of a scan is a walk by the rules. -/
theorem exists_walks (hview : s.view.WellNamed) (hcheck : s.check.NeverCrashes)
    {cluster : FilePath} {ss : List Stop} (hcluster : s.cluster = .ok cluster)
    (hstops : stops s.view (cluster / Layout.currentName) = .ok ss) :
    ∃ fs, Walks s.toLoading c ss fs (s.run c r).catalog ∧
      (s.run c r).report = some (s.report fs) := by
  have hw := walks_visitAll hcheck c fun _ => named_of_mem_stops hview hstops
  have hrun := run_of_stops (r := r) hcluster hstops hw.not_crashed
  exact ⟨_, by rw [hrun]; exact hw, by rw [hrun]⟩

end

/-! ## Reports read off findings -/

namespace Finding

/-- The container that is loaded. -/
def loaded? : Finding → Option ContainerId
  | loaded id _ => some id
  | _ => none

/-- The container that is skipped. -/
def skipped? : Finding → Option SkippedContainer
  | skipped x => some x
  | _ => none

/-- The directory that stops the walk. -/
def malformed? : Finding → Option FilePath
  | malformedName dir => some dir
  | _ => none

end Finding

theorem loaded_report (s : Scan) (fs : List Finding) :
    (s.report fs).loaded = fs.filterMap Finding.loaded? := rfl

theorem skipped_report (s : Scan) (fs : List Finding) :
    (s.report fs).skipped = fs.filterMap Finding.skipped? := rfl

theorem aborted_report (s : Scan) (fs : List Finding) :
    (s.report fs).aborted = fs.findSome? Finding.malformed? := rfl

/-! ## A sample -/

/-- A scan of the sample volume. -/
def sample : Scan where
  view := Disk.sample.view
  check := .indexFile
  volume := 0
  root := ⟨"/v"⟩

theorem subdirectories_root_sample : sample.view.subdirectories sample.root = .ok [⟨"/v/c"⟩] :=
  DiskView.subdirectories_of_ordered ["c"] (by decide +kernel) (by decide)

theorem subdirectories_current_sample :
    sample.view.subdirectories ⟨"/v/c/current"⟩ =
      .ok [⟨"/v/c/current/a"⟩, ⟨"/v/c/current/b"⟩, ⟨"/v/c/current/d"⟩] :=
  DiskView.subdirectories_of_ordered ["a", "b", "d"] (by decide +kernel) (by decide)

theorem cluster_sample : sample.cluster = .ok ⟨"/v/c"⟩ := by
  rw [cluster, subdirectories_root_sample]

theorem subdirectories_group_sample :
    sample.view.subdirectories ⟨"/v/c/current/b"⟩ =
      .ok [⟨"/v/c/current/b/7"⟩, ⟨"/v/c/current/b/x"⟩] :=
  DiskView.subdirectories_of_ordered ["7", "x"] (by decide +kernel) (by decide)

/-- What lies ahead on the sample volume. -/
theorem stops_sample : stops sample.view ⟨"/v/c/current"⟩ = .ok
    [.unreadableGroup ⟨"/v/c/current/a"⟩ .denied, .candidate ⟨"/v/c/current/b/7"⟩,
      .candidate ⟨"/v/c/current/b/x"⟩, .candidate ⟨"/v/c/current/d/8"⟩] := by
  have ha : sample.view.subdirectories ⟨"/v/c/current/a"⟩ = .error .denied := by
    decide +kernel
  have hd : sample.view.subdirectories ⟨"/v/c/current/d"⟩ = .ok [⟨"/v/c/current/d/8"⟩] :=
    DiskView.subdirectories_of_ordered ["8"] (by decide +kernel) (by decide)
  simp [stops, stopsIn, subdirectories_current_sample, ha, subdirectories_group_sample, hd, Except.map]

/-! ## Every directory is decided on -/

/-- **A scan decides on every directory by the first condition that fails.** It is a walk by the
rules, and whatever the catalog holds when the walk comes to a directory with a number, there is one
outcome and one catalog behind it. -/
theorem run_decides (s : Scan) (c : Catalog) (r : Registry) (hview : s.view.WellNamed)
    (hcheck : s.check.NeverCrashes) {cluster : FilePath} {ss : List Stop}
    (hcluster : s.cluster = .ok cluster)
    (hstops : stops s.view (cluster / Layout.currentName) = .ok ss) :
    (∃ fs, Walks s.toLoading c ss fs (s.run c r).catalog ∧
      (s.run c r).report = some (s.report fs)) ∧
    ∀ dir id, .candidate dir ∈ ss → containerId? dir = some id → ∀ k : Catalog,
      ∃ a k', s.toLoading.Decided dir id k a k' ∧
        ∀ b k'', s.toLoading.Decided dir id k b k'' → b = a ∧ k'' = k' := by
  refine ⟨exists_walks hview hcheck hcluster hstops, fun dir id hmem _ k => ?_⟩
  obtain ⟨parent, name, hname, rfl⟩ := named_of_mem_stops hview hstops hmem
  obtain ⟨a, k', hd⟩ := Loading.exists_decided hcheck (parent / name) id k
  refine ⟨a, k', hd, fun b k'' hd' => ?_⟩
  have heq := (Loading.attempt_of_decided hname hd').symm.trans
    (Loading.attempt_of_decided hname hd)
  exact Prod.mk.inj heq

/-- On the sample, one outcome is decided for the directory of container 7, from every catalog. -/
theorem run_decides_sample :
    sample.view.WellNamed ∧ sample.check.NeverCrashes ∧
    (∃ fs, Walks sample.toLoading .empty
        [.unreadableGroup ⟨"/v/c/current/a"⟩ .denied, .candidate ⟨"/v/c/current/b/7"⟩,
          .candidate ⟨"/v/c/current/b/x"⟩, .candidate ⟨"/v/c/current/d/8"⟩] fs
        (sample.run .empty .empty).catalog ∧
      (sample.run .empty .empty).report = some (sample.report fs)) ∧
    ∀ k, ∃ a k', sample.toLoading.Decided ⟨"/v/c/current/b/7"⟩ 7 k a k' ∧
      ∀ b k'', sample.toLoading.Decided ⟨"/v/c/current/b/7"⟩ 7 k b k'' → b = a ∧ k'' = k' := by
  have hview := Disk.isTree_sample.wellNamed
  have hcheck := StructureCheck.neverCrashes_indexFile
  obtain ⟨hwalks, hone⟩ := run_decides sample .empty .empty hview hcheck cluster_sample stops_sample
  exact ⟨hview, hcheck, hwalks, hone ⟨"/v/c/current/b/7"⟩ 7 (by simp) (by decide +kernel)⟩

end Scan

end StorageNode
