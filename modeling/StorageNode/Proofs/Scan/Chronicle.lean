import StorageNode.Proofs.Scan.Failure
import StorageNode.Proofs.Scan.Insertions
import StorageNode.Proofs.Scan.Processed

/-!
# The log of a scan

A scan writes its log while it goes along and hands out its report at the end. `Scan.Recounts` follows the
directories of a volume and says what is reported and what is logged at each of them, so that the two lists
of the report and the one of the log are tied to one another entry by entry, in the order of the walk.
`Scan.run_recounts` says that the report and the log of every scan are tied in this way, with the summary as
the last event, and that the report can be read off the log again (`Scan.Tells`).

From what a single visit comes to (`Scan.visit_numbered`) this is got for the directories of a group, and from
these for the groups. What is loaded at a visit is in the catalog behind the whole walk, because the rest of
the walk only adds to it.
-/

namespace StorageNode

/-! ## What an event tells -/

namespace Event

/-- The container that was taken into the catalog. -/
def inserted? : Event → Option ContainerId
  | containerInserted _ id => some id
  | _ => none

/-- The container that was loaded. -/
def loaded? : Event → Option ContainerId
  | containerLoaded _ id _ => some id
  | _ => none

/-- The container that was skipped, and the class of the cause. -/
def skipped? : Event → Option (ContainerId × LoadErrorClass)
  | containerSkipped _ id cause => some (id, cause.kind)
  | _ => none

/-- The directory that is not named by a number. -/
def malformed? : Event → Option FilePath
  | nameMalformed _ dir => some dir
  | _ => none

/-- How many containers were loaded and how many skipped, and whether the walk was stopped. -/
def completed? : Event → Option (Nat × Nat × Bool)
  | scanComplete _ _ loaded skipped aborted => some (loaded, skipped, aborted)
  | _ => none

end Event

namespace Scan

/-- **The report can be read off the log**: each container that is loaded is taken into the catalog once and
loaded once, each one that is skipped is skipped once with its class, the directory that stopped the walk is
told of if there is one, and the summaries are those of `ends`. -/
structure Tells (es : List Event) (loaded : List ContainerId) (skipped : List SkippedContainer)
    (aborted : Option FilePath) (ends : List (Nat × Nat × Bool)) : Prop where
  inserted : es.filterMap Event.inserted? = loaded
  loaded : es.filterMap Event.loaded? = loaded
  skipped : es.filterMap Event.skipped? = skipped.map fun x => (x.id, x.cause.kind)
  malformed : es.filterMap Event.malformed? = aborted.toList
  completed : es.filterMap Event.completed? = ends

/-! ## The log of a walk -/

/-- **What is reported and what is logged**, where `ds` are the directories that are left in a group and
`gs` the groups behind it: the containers that are loaded and those that are skipped, the directory that
stops the walk, and the events. Of a container that is loaded, the catalog `k` knows the state. -/
inductive Recounts (v : DiskView) (volume : VolumeId) (k : Catalog) : List FilePath → List FilePath →
    List ContainerId → List SkippedContainer → Option FilePath → List Event → Prop
  | complete : Recounts v volume k [] [] [] [] none []
  /-- To go into a group is no event. -/
  | listed {g : FilePath} {gs ds : List FilePath} {loaded : List ContainerId}
      {skipped : List SkippedContainer} {aborted : Option FilePath} {es : List Event}
      (h : v.Subdirectories g ds) (hrest : Recounts v volume k ds gs loaded skipped aborted es) :
      Recounts v volume k [] (g :: gs) loaded skipped aborted es
  /-- A group that cannot be listed is passed over with one event. -/
  | unlisted {g : FilePath} {gs : List FilePath} {e : DiskError} {loaded : List ContainerId}
      {skipped : List SkippedContainer} {aborted : Option FilePath} {es : List Event}
      (h : v.list g = .error e) (hrest : Recounts v volume k [] gs loaded skipped aborted es) :
      Recounts v volume k [] (g :: gs) loaded skipped aborted (.groupUnreadable volume g e :: es)
  /-- A container is taken into the catalog, and right after that it is loaded. -/
  | loaded {dir : FilePath} {id : ContainerId} {x : Container} {ds gs : List FilePath}
      {loaded : List ContainerId} {skipped : List SkippedContainer} {aborted : Option FilePath}
      {es : List Event} (hid : Numbered dir id) (hx : k.get? id = some x) (hvolume : x.volume = volume)
      (hrest : Recounts v volume k ds gs loaded skipped aborted es) :
      Recounts v volume k (dir :: ds) gs (id :: loaded) skipped aborted
        (.containerInserted volume id :: .containerLoaded volume id x.state :: es)
  /-- A container is skipped with one event, for the cause that is reported. -/
  | skipped {dir : FilePath} {id : ContainerId} {cause : LoadError} {ds gs : List FilePath}
      {loaded : List ContainerId} {skipped : List SkippedContainer} {aborted : Option FilePath}
      {es : List Event} (hid : Numbered dir id)
      (hrest : Recounts v volume k ds gs loaded skipped aborted es) :
      Recounts v volume k (dir :: ds) gs loaded (⟨id, dir, cause⟩ :: skipped) aborted
        (.containerSkipped volume id cause :: es)
  /-- A directory that no number names is the last one, whatever is left. -/
  | malformed {dir : FilePath} (ds gs : List FilePath) (h : ∀ id, ¬ Numbered dir id) :
      Recounts v volume k (dir :: ds) gs [] [] (some dir) [.nameMalformed volume dir]

/-- Before the summary, the report can be read off the log. -/
theorem Recounts.tells {v : DiskView} {volume : VolumeId} {k : Catalog} {ds gs : List FilePath}
    {loaded : List ContainerId} {skipped : List SkippedContainer} {aborted : Option FilePath}
    {es : List Event} (h : Recounts v volume k ds gs loaded skipped aborted es) :
    Tells es loaded skipped aborted [] := by
  induction h with
  | complete => exact ⟨rfl, rfl, rfl, rfl, rfl⟩
  | listed _ _ ih => exact ih
  | unlisted _ _ ih => exact ⟨ih.inserted, ih.loaded, ih.skipped, ih.malformed, ih.completed⟩
  | @loaded _ id _ _ _ _ _ _ _ _ _ _ _ ih =>
      exact {
        inserted := congrArg (id :: ·) ih.inserted
        loaded := congrArg (id :: ·) ih.loaded
        skipped := ih.skipped
        malformed := ih.malformed
        completed := ih.completed }
  | @skipped _ id cause _ _ _ _ _ _ _ _ ih =>
      exact {
        inserted := ih.inserted
        loaded := ih.loaded
        skipped := congrArg ((id, cause.kind) :: ·) ih.skipped
        malformed := ih.malformed
        completed := ih.completed }
  | malformed => exact ⟨rfl, rfl, rfl, rfl, rfl⟩

/-- The summary behind it tells of the end, and of nothing else. -/
theorem Tells.summary {es : List Event} {loaded : List ContainerId} {skipped : List SkippedContainer}
    {aborted : Option FilePath} (h : Tells es loaded skipped aborted []) (volume : VolumeId)
    (root : FilePath) (m n : Nat) (b : Bool) :
    Tells (es ++ [.scanComplete volume root m n b]) loaded skipped aborted [(m, n, b)] where
  inserted := by rw [List.filterMap_append, h.inserted]; exact List.append_nil _
  loaded := by rw [List.filterMap_append, h.loaded]; exact List.append_nil _
  skipped := by rw [List.filterMap_append, h.skipped]; exact List.append_nil _
  malformed := by rw [List.filterMap_append, h.malformed]; exact List.append_nil _
  completed := by rw [List.filterMap_append, h.completed]; rfl

/-! ## The visits -/

/-- The visits, taken together, recount the directories left in a group and the groups behind it. -/
def Recounted (l : Loading) (k : Catalog) (ds gs : List FilePath)
    (visits : List Finding × Catalog × List Event) : Prop :=
  Recounts l.view l.volume k ds gs (visits.1.filterMap Finding.loaded?)
    (visits.1.filterMap Finding.skipped?) (visits.1.findSome? Finding.malformed?) visits.2.2

section

variable {l : Loading} {k : Catalog}

/-- In a group, where what lies behind it is recounted from every catalog. -/
theorem recounted_candidates (hcheck : l.check.NeverCrashes) {gs : List FilePath} {ss : List Stop}
    (hlater : ∀ c, (visitAll l c ss).2.1.Extends k → Recounted l k [] gs (visitAll l c ss)) :
    ∀ (ds : List FilePath) (c : Catalog),
      (visitAll l c (ds.map .candidate ++ ss)).2.1.Extends k →
      Recounted l k ds gs (visitAll l c (ds.map .candidate ++ ss))
  | [], c, hk => hlater c hk
  | dir :: ds, c, hk => by
      rw [List.map_cons, List.cons_append] at hk ⊢
      cases hid : containerId? dir with
      | none =>
          have hvisit := visit_malformed (l := l) hid c
          rw [visitAll_of_last _ (by rw [hvisit]; rfl), hvisit]
          refine .malformed ds gs fun id hnum => ?_
          rw [containerId?_eq_some_iff.mpr hnum] at hid
          cases hid
      | some id =>
          have hnum := containerId?_eq_some_iff.mp hid
          rcases visit_numbered (l := l) hid c with
            ⟨x, c', hvisit, rfl, hvolume, hg⟩ | ⟨cause, hvisit⟩ | hvisit
          · rw [visitAll_of_not_last _ (by rw [hvisit]; rfl), hvisit] at hk ⊢
            -- what is inserted here is still there when the walk is over
            have hkept : k.get? x.id = some x :=
              hk _ x ((insertsAll_visitAll l c' _).keeps _ x hg.get?_self)
            exact .loaded hnum hkept hvolume (recounted_candidates hcheck hlater ds c' hk)
          · rw [visitAll_of_not_last _ (by rw [hvisit]; rfl), hvisit] at hk ⊢
            exact .skipped hnum (recounted_candidates hcheck hlater ds c hk)
          · exact absurd (congrArg Prod.fst hvisit) (visit_ne_crashed hcheck c _)

/-- **The visits to the groups recount them**, for every catalog that has at least what they leave. -/
theorem recounted_groups (hcheck : l.check.NeverCrashes) : ∀ (gs : List FilePath) (c : Catalog),
    (visitAll l c (gs.flatMap (stopsIn l.view))).2.1.Extends k →
    Recounted l k [] gs (visitAll l c (gs.flatMap (stopsIn l.view)))
  | [], _, _ => .complete
  | g :: gs, c, hk => by
      rw [List.flatMap_cons] at hk ⊢
      cases hsub : l.view.subdirectories g with
      | error e =>
          have hstops : stopsIn l.view g = [.unreadableGroup g e] := by simp [stopsIn, hsub]
          rw [hstops, List.singleton_append, visitAll_of_not_last _ rfl] at hk ⊢
          exact .unlisted (DiskView.subdirectories_eq_error_iff.mp hsub)
            (recounted_groups hcheck gs c hk)
      | ok ds =>
          have hstops : stopsIn l.view g = ds.map .candidate := by simp [stopsIn, hsub]
          rw [hstops] at hk ⊢
          exact .listed (DiskView.subdirectories_eq_ok_iff.mp hsub)
            (recounted_candidates hcheck (recounted_groups hcheck gs) ds c hk)

end

/-! ## The theorem -/

/-- **The log of a scan is an account of its report.** Where the root holds one cluster directory and the
groups in its `current` can be listed, the events in front of the last one recount the walk over the groups
together with the report, and the last one is the summary of the report. So the report can be read off the
log, in which there is one summary. -/
theorem run_recounts (s : Scan) (c : Catalog) (r : Registry) (hcheck : s.check.NeverCrashes)
    {cluster : FilePath} {groups : List FilePath} (hroot : s.view.Subdirectories s.root [cluster])
    (hcurrent : s.view.Subdirectories (cluster / Layout.currentName) groups) :
    ∃ report es, (s.run c r).report = some report ∧ report.failure = none ∧
      Recounts s.view s.volume (s.run c r).catalog [] groups
        report.loaded report.skipped report.aborted es ∧
      (s.run c r).events = es ++ [.scanComplete s.volume s.root report.loaded.length
        report.skipped.length report.aborted.isSome] ∧
      Tells (s.run c r).events report.loaded report.skipped report.aborted
        [(report.loaded.length, report.skipped.length, report.aborted.isSome)] := by
  have hrun := run_of_stops (r := r) (cluster_eq_ok hroot) (stops_of_subdirectories hcurrent)
    (crashed_not_mem_visitAll hcheck c _)
  have hrecounts := recounted_groups hcheck groups c (.refl _)
  rw [hrun]
  exact ⟨_, _, rfl, rfl, hrecounts, rfl, hrecounts.tells.summary _ _ _ _ _⟩

/-- A scan of the sample volume, where a group cannot be listed and a directory stops the walk, has such a
log. -/
theorem run_recounts_sample :
    sample.check.NeverCrashes ∧ sample.view.Subdirectories sample.root [⟨"/v/c"⟩] ∧
    sample.view.Subdirectories ⟨"/v/c/current"⟩
      [⟨"/v/c/current/a"⟩, ⟨"/v/c/current/b"⟩, ⟨"/v/c/current/d"⟩] ∧
    ∃ report es, (sample.run .empty .empty).report = some report ∧
      Recounts sample.view 0 (sample.run .empty .empty).catalog []
        [⟨"/v/c/current/a"⟩, ⟨"/v/c/current/b"⟩, ⟨"/v/c/current/d"⟩]
        report.loaded report.skipped report.aborted es ∧
      (sample.run .empty .empty).events = es ++ [.scanComplete 0 ⟨"/v"⟩ report.loaded.length
        report.skipped.length report.aborted.isSome] ∧
      Tells (sample.run .empty .empty).events report.loaded report.skipped report.aborted
        [(report.loaded.length, report.skipped.length, report.aborted.isSome)] := by
  have hcheck := StructureCheck.neverCrashes_indexFile
  have hroot := DiskView.subdirectories_eq_ok_iff.mp subdirectories_root_sample
  have hcurrent := DiskView.subdirectories_eq_ok_iff.mp subdirectories_current_sample
  obtain ⟨report, es, hreport, -, hrecounts, hevents, htells⟩ :=
    run_recounts sample .empty .empty hcheck hroot hcurrent
  exact ⟨hcheck, hroot, hcurrent, report, es, hreport, hrecounts, hevents, htells⟩

end Scan

end StorageNode
