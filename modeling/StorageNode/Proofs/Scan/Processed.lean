import StorageNode.Proofs.Scan.Order

/-!
# The directories that a scan processes

`Scan.Processed` says which directories the scan of a volume processes, and with which numbers, without
running it: none if the volume fails or its groups cannot be listed, otherwise those of the groups that
can be listed, in order, up to the first one that is not named by a number. There is one such list
(`Scan.processed_iff`), and it is what the stops of the walk offer (`Scan.offers`).

What becomes of such a directory depends on what lies in it (`Loading.Passes`) and on whether its number
is taken, and on nothing else (`Loading.Passes.decided`).
-/

namespace StorageNode

namespace Scan

/-! ## Directories named by numbers -/

/-- Directories with their numbers, up to the first one that has none. -/
def numbered : List FilePath → List (FilePath × ContainerId)
  | [] => []
  | dir :: dirs =>
    match containerId? dir with
    | none => []
    | some id => (dir, id) :: numbered dirs

theorem numbered_cons_of_some {dir : FilePath} {id : ContainerId} (h : containerId? dir = some id)
    (dirs : List FilePath) : numbered (dir :: dirs) = (dir, id) :: numbered dirs := by
  rw [numbered, h]

theorem numbered_cons_of_none {dir : FilePath} (h : containerId? dir = none)
    (dirs : List FilePath) : numbered (dir :: dirs) = [] := by
  rw [numbered, h]

/-- These are the directories in front, each with its number. -/
theorem exists_ahead_numbered (dirs : List FilePath) :
    ∃ ahead, dirs = (numbered dirs).map (·.1) ++ ahead ∧
      (∀ p ∈ numbered dirs, Numbered p.1 p.2) ∧
      ∀ dir, ahead.head? = some dir → ∀ id, ¬ Numbered dir id := by
  induction dirs with
  | nil => exact ⟨[], rfl, fun p hp => absurd hp List.not_mem_nil, by simp⟩
  | cons dir dirs ih =>
      cases hid : containerId? dir with
      | none =>
          rw [numbered_cons_of_none hid]
          refine ⟨dir :: dirs, rfl, fun p hp => absurd hp List.not_mem_nil, fun dir' hhead id hnum => ?_⟩
          obtain rfl : dir = dir' := Option.some.inj hhead
          simp [containerId?_eq_some_iff.mpr hnum] at hid
      | some id =>
          obtain ⟨ahead, hsplit, hnum, hlongest⟩ := ih
          rw [numbered_cons_of_some hid]
          refine ⟨ahead, congrArg (dir :: ·) hsplit, ?_, hlongest⟩
          exact List.forall_mem_cons.mpr ⟨containerId?_eq_some_iff.mp hid, hnum⟩

/-- No other list of directories with their numbers is as long as can be. -/
theorem numbered_append {ds : List (FilePath × ContainerId)} {ahead : List FilePath}
    (hnum : ∀ p ∈ ds, Numbered p.1 p.2)
    (hlongest : ∀ dir, ahead.head? = some dir → ∀ id, ¬ Numbered dir id) :
    numbered (ds.map (·.1) ++ ahead) = ds := by
  induction ds with
  | nil =>
      cases ahead with
      | nil => rfl
      | cons dir ahead =>
          refine numbered_cons_of_none (Option.eq_none_iff_forall_not_mem.mpr fun id hid => ?_) ahead
          exact hlongest dir rfl id (containerId?_eq_some_iff.mp hid)
  | cons p ds ih =>
      obtain ⟨hp, hds⟩ := List.forall_mem_cons.mp hnum
      rw [List.map_cons, List.cons_append,
        numbered_cons_of_some (containerId?_eq_some_iff.mpr hp), ih hds]

/-! ## What a scan processes -/

/-- **The directories that the scan of a volume processes**, with their numbers. -/
inductive Processed (v : DiskView) (root : FilePath) : List (FilePath × ContainerId) → Prop
  /-- A volume without a cluster of its own fails. -/
  | failed (h : ∀ cluster, ¬ v.Subdirectories root [cluster]) : Processed v root []
  | unlisted {cluster : FilePath} {e : DiskError} (hroot : v.Subdirectories root [cluster])
      (h : v.list (cluster / Layout.currentName) = .error e) : Processed v root []
  /-- The walk goes over the groups that can be listed, up to the first malformed name. -/
  | walked {cluster : FilePath} {groups ahead : List FilePath} {ds : List (FilePath × ContainerId)}
      (hroot : v.Subdirectories root [cluster])
      (hcurrent : v.Subdirectories (cluster / Layout.currentName) groups)
      (hwalk : v.Ahead groups (ds.map (·.1) ++ ahead)) (hnum : ∀ p ∈ ds, Numbered p.1 p.2)
      (hlongest : ∀ dir, ahead.head? = some dir → ∀ id, ¬ Numbered dir id) : Processed v root ds

/-- What stops offer: their directories up to the first one that has no number. -/
def offers (ss : List Stop) : List (FilePath × ContainerId) := numbered (ss.filterMap Stop.candidate?)

/-- What a scan processes, as the reader finds it. -/
def processed (s : Scan) : List (FilePath × ContainerId) :=
  match s.cluster with
  | .error _ => []
  | .ok dir =>
    match stops s.view (dir / Layout.currentName) with
    | .error _ => []
    | .ok ss => offers ss

theorem processed_of_fault {s : Scan} {fault : VolumeFault} (h : s.cluster = .error fault) :
    s.processed = [] := by
  rw [processed, h]

theorem processed_of_unreadable {s : Scan} {cluster : FilePath} {e : DiskError}
    (hcluster : s.cluster = .ok cluster)
    (h : stops s.view (cluster / Layout.currentName) = .error e) : s.processed = [] := by
  rw [processed, hcluster]
  simp only [h]

theorem processed_of_stops {s : Scan} {cluster : FilePath} {ss : List Stop}
    (hcluster : s.cluster = .ok cluster)
    (h : stops s.view (cluster / Layout.currentName) = .ok ss) : s.processed = offers ss := by
  rw [processed, hcluster]
  simp only [h]

/-- The groups give one list of directories. -/
theorem ahead_unique {v : DiskView} {groups walk walk' : List FilePath} (h : v.Ahead groups walk)
    (h' : v.Ahead groups walk') : walk = walk' := by
  induction h generalizing walk' with
  | nil =>
      cases h'
      rfl
  | @listed g gs ds walk hds _ ih =>
      have hsub := DiskView.subdirectories_eq_ok_iff.mpr hds
      cases h' with
      | listed hds' hrest =>
          rw [DiskView.subdirectories_eq_ok_iff.mpr hds'] at hsub
          rw [Except.ok.inj hsub, ih hrest]
      | unlisted he => simp [DiskView.subdirectories_eq_error_iff.mpr he] at hsub
  | @unlisted g gs walk e he _ ih =>
      have hsub := DiskView.subdirectories_eq_error_iff.mpr he
      cases h' with
      | listed hds => simp [DiskView.subdirectories_eq_ok_iff.mpr hds] at hsub
      | unlisted _ hrest => exact ih hrest

theorem stops_of_subdirectories {v : DiskView} {current : FilePath} {groups : List FilePath}
    (h : v.Subdirectories current groups) : stops v current = .ok (groups.flatMap (stopsIn v)) := by
  rw [stops, DiskView.subdirectories_eq_ok_iff.mpr h]
  rfl

theorem cluster_eq_ok {s : Scan} {cluster : FilePath} (h : s.view.Subdirectories s.root [cluster]) :
    s.cluster = .ok cluster := cluster_eq_ok_iff.mpr (DiskView.subdirectories_eq_ok_iff.mpr h)

/-- What the reader finds is what the scan processes. -/
theorem processed_processed (s : Scan) : Processed s.view s.root s.processed := by
  cases hcluster : s.cluster with
  | error fault =>
      rw [processed_of_fault hcluster]
      refine .failed fun cluster hroot => ?_
      simp [cluster_eq_ok hroot] at hcluster
  | ok cluster =>
      have hroot := DiskView.subdirectories_eq_ok_iff.mp (cluster_eq_ok_iff.mp hcluster)
      cases hsub : s.view.subdirectories (cluster / Layout.currentName) with
      | error e =>
          have hstops : stops s.view (cluster / Layout.currentName) = .error e := by
            rw [stops, hsub]
            rfl
          rw [processed_of_unreadable hcluster hstops]
          exact .unlisted hroot (DiskView.subdirectories_eq_error_iff.mp hsub)
      | ok groups =>
          have hcurrent := DiskView.subdirectories_eq_ok_iff.mp hsub
          rw [processed_of_stops hcluster (stops_of_subdirectories hcurrent), offers]
          obtain ⟨ahead, hsplit, hnum, hlongest⟩ := exists_ahead_numbered
            ((groups.flatMap (stopsIn s.view)).filterMap Stop.candidate?)
          have hwalk := ahead_stops (v := s.view) groups
          rw [hsplit] at hwalk
          exact .walked hroot hcurrent hwalk hnum hlongest

/-- **A scan processes one list of directories.** -/
theorem processed_iff {s : Scan} {ds : List (FilePath × ContainerId)} :
    Processed s.view s.root ds ↔ s.processed = ds := by
  refine ⟨fun h => ?_, fun h => h ▸ processed_processed s⟩
  cases h with
  | failed h =>
      cases hcluster : s.cluster with
      | error fault => exact processed_of_fault hcluster
      | ok cluster =>
          exact absurd (DiskView.subdirectories_eq_ok_iff.mp (cluster_eq_ok_iff.mp hcluster))
            (h cluster)
  | @unlisted _ e hroot he =>
      refine processed_of_unreadable (e := e) (cluster_eq_ok hroot) ?_
      rw [stops, DiskView.subdirectories_eq_error_iff.mpr he]
      rfl
  | @walked _ groups _ _ hroot hcurrent hwalk hnum hlongest =>
      rw [processed_of_stops (cluster_eq_ok hroot) (stops_of_subdirectories hcurrent), offers,
        ahead_unique (ahead_stops groups) hwalk]
      exact numbered_append hnum hlongest

/-- A volume with one group offers the directories of that group. -/
theorem processed_of_group {s : Scan} {cluster group : FilePath} {dirs : List FilePath}
    (hroot : s.view.subdirectories s.root = .ok [cluster])
    (hcurrent : s.view.subdirectories (cluster / Layout.currentName) = .ok [group])
    (hgroup : s.view.subdirectories group = .ok dirs) : s.processed = numbered dirs := by
  have hstops := stops_of_subdirectories (DiskView.subdirectories_eq_ok_iff.mp hcurrent)
  rw [processed_of_stops (cluster_eq_ok_iff.mpr hroot) hstops, offers, List.flatMap_singleton, stopsIn,
    hgroup]
  exact congrArg numbered (List.filterMap_map.trans (List.filterMap_some))

/-- The directory with the number is processed by the scan of a volume. -/
def Processes (v : DiskView) (root dir : FilePath) (id : ContainerId) : Prop :=
  ∃ ds, Processed v root ds ∧ (dir, id) ∈ ds

theorem processes_iff {s : Scan} {dir : FilePath} {id : ContainerId} :
    Processes s.view s.root dir id ↔ (dir, id) ∈ s.processed := by
  simp [Processes, processed_iff]

section

variable {dir : FilePath}

theorem offers_malformed (h : containerId? dir = none) (ss : List Stop) :
    offers (.candidate dir :: ss) = [] := numbered_cons_of_none h _

theorem offers_candidate {id : ContainerId} (h : containerId? dir = some id) (ss : List Stop) :
    offers (.candidate dir :: ss) = (dir, id) :: offers ss := numbered_cons_of_some h _

end

end Scan

/-! ## Directories that pass all checks -/

namespace Loading

/-- **The directory passes all checks** but that of the number: its descriptor can be read, is its own
and holds the settings of the supported type, and the structure check accepts it. The container is the
one that the descriptor describes. -/
def Passes (l : Loading) (dir : FilePath) (id : ContainerId) (x : Container) : Prop :=
  ∃ d settings, l.Typed dir id d settings ∧
    l.check l.view d settings (.ofDirectory dir id) = .accepted ∧ x = l.described dir id d settings

variable {l : Loading} {dir : FilePath} {id : ContainerId} {x y : Container}

theorem Passes.id_eq (h : l.Passes dir id x) : x.id = id := by
  obtain ⟨d, settings, -, -, rfl⟩ := h
  rfl

theorem Passes.volume_eq (h : l.Passes dir id x) : x.volume = l.volume := by
  obtain ⟨d, settings, -, -, rfl⟩ := h
  rfl

theorem Passes.paths_eq (h : l.Passes dir id x) : x.paths = .ofDirectory dir id := by
  obtain ⟨d, settings, -, -, rfl⟩ := h
  rfl

/-- **A directory that passes all checks is loaded, or its number is taken**, and then it is skipped as a
duplicate of the container that has the number. -/
theorem Passes.decided (hx : l.Passes dir id x) {c c' : Catalog} {a : Attempt}
    (h : l.Decided dir id c a c') :
    (a = .loaded x ∧ c.Gains x c') ∨
      ∃ old, c.get? id = some old ∧ c' = c ∧
        a = .skipped (.duplicate ⟨id, old.volume, l.volume⟩) := by
  obtain ⟨d, settings, ht, ha, rfl⟩ := hx
  have hfound := ht.parsed.found
  -- every other outcome denies one of the conditions
  cases h with
  | missingMetadata h => simp [hfound.metadata] at h
  | missingDescriptor _ h => simp [hfound.descriptor] at h
  | unreadable _ h => simp [ht.parsed.load] at h
  | foreign _ hl h =>
      obtain rfl := Except.ok.inj (ht.parsed.load.symm.trans hl)
      exact absurd ht.parsed.own h
  | unsupported hp h =>
      obtain rfl := Except.ok.inj (ht.parsed.load.symm.trans hp.load)
      exact absurd ht.supported h
  | payload hp _ h =>
      obtain rfl := Except.ok.inj (ht.parsed.load.symm.trans hp.load)
      simp [ht.projected] at h
  | «structure» ht' h =>
      obtain rfl := Except.ok.inj (ht.parsed.load.symm.trans ht'.parsed.load)
      obtain rfl := Except.ok.inj (ht.projected.symm.trans ht'.projected)
      simp [ha] at h
  | @duplicate _ _ old _ _ h => exact .inr ⟨old, h, rfl, rfl⟩
  | loaded ht' _ hg =>
      obtain rfl := Except.ok.inj (ht.parsed.load.symm.trans ht'.parsed.load)
      obtain rfl := Except.ok.inj (ht.projected.symm.trans ht'.projected)
      exact .inl ⟨rfl, hg⟩

/-- What is loaded has passed all checks. -/
theorem Decided.passes {c c' : Catalog} (h : l.Decided dir id c (.loaded x) c') :
    l.Passes dir id x ∧ c.Gains x c' := by
  cases h with
  | loaded ht ha hg => exact ⟨⟨_, _, ht, ha, rfl⟩, hg⟩

/-- What the reader would load has passed all checks, whatever the catalog holds. -/
theorem passes_of_examine {parent : FilePath} {name : String} (hname : FilePath.IsName name)
    (h : l.examine id (parent / name) = .loaded x) : l.Passes (parent / name) id x := by
  rcases decided_or_crashes (l := l) (parent / name) id .empty with ⟨a, c', hd⟩ | hcrash
  · -- from a catalog without containers, what passes is loaded
    have hattempt := attempt_of_decided hname hd
    obtain ⟨k, htakes, -⟩ := Catalog.admit_of_none (c := .empty) (x := x) rfl
    simp only [attempt, h, htakes, Prod.mk.injEq] at hattempt
    obtain ⟨rfl, -⟩ := hattempt
    exact hd.passes.1
  · simp [examine_of_crashes hname hcrash] at h

end Loading

end StorageNode
