import StorageNode.Proofs.Recovery.Locality

/-!
# Workers step by step

Recovery scans each volume by a worker of its own. `Node.Task` tells how far a worker is, and
`Node.Task.advance` is its next step: the failure of the volume, or the visit to one container directory.
Whatever step comes next, finishing the work comes to the same as before it (`Node.Task.finish_advance`),
and for a worker that has not begun, finishing is the whole scan of the volume.

The steps of a worker are local to the numbers of the directories that its scan processes
(`Node.Task.local_advance`), and so is the rest of its work (`Node.Task.local_finish`).
-/

namespace StorageNode

namespace Node

open Scan (Stop Finding)

/-- The scan of a volume. -/
abbrev scanning (view : DiskView) (check : StructureCheck) (v : Volume) : Scan :=
  ⟨⟨view, check, v.id⟩, v.root⟩

/-- What a worker leaves of a volume: its report, unless it has crashed. -/
def WorkerResult.ofReport (v : Volume) : Option ScanReport → WorkerResult
  | some r => .report r
  | none => .failure ⟨v.id, v.root, "scan worker panicked"⟩

/-- How far a worker is. -/
inductive Task where
  | ready
  /-- What the walk has ahead, and what has been found. -/
  | walking (ahead : List Stop) (found : List Finding)
  /-- The report, unless the worker has crashed. -/
  | finished (report : Option ScanReport)

/-- A visit to a stop. -/
def visit (l : Loading) (stop : Stop) (n : Node) : Finding × Node :=
  ((Scan.visit l n.catalog stop).1, { n with catalog := (Scan.visit l n.catalog stop).2.1 })

namespace Task

/-- How far a worker is after a visit. -/
def behind (s : Scan) (ahead : List Stop) (found : List Finding) (f : Finding) : Task :=
  if f = .crashed then .finished none
  else if f.isLast then .finished (some (s.report (found ++ [f])))
  else .walking ahead (found ++ [f])

/-- **One step of a worker**: the volume fails, or what lies ahead is laid out, or one stop is visited. -/
def advance (s : Scan) : Task → Node → Task × Node
  | .ready, n =>
    match s.cluster with
    | .error fault => (.finished (some { s.report [] with failure := some fault }),
        { n with registry := (n.registry.fail s.root).1 })
    | .ok dir =>
      match Scan.stops s.view (dir / Layout.currentName) with
      | .error _ => (.finished (some (s.report [])), n)
      | .ok ss => (.walking ss [], n)
  | .walking [] found, n => (.finished (some (s.report found)), n)
  | .walking (stop :: ahead) found, n =>
    let (f, n) := visit s.toLoading stop n
    (behind s ahead found f, n)
  | .finished r, n => (.finished r, n)

/-- The rest of the work of a worker, without a break. -/
def finish (s : Scan) : Task → Node → Option ScanReport × Node
  | .ready, n => ((s.run n.catalog n.registry).report,
      ⟨(s.run n.catalog n.registry).registry, (s.run n.catalog n.registry).catalog⟩)
  | .walking ahead found, n =>
    let (fs, c, _) := Scan.visitAll s.toLoading n.catalog ahead
    (if fs.contains .crashed then none else some (s.report (found ++ fs)), { n with catalog := c })
  | .finished r, n => (r, n)

variable {s : Scan}

/-- **A step does not change what the work comes to.** -/
theorem finish_advance (t : Task) (n : Node) :
    (t.advance s n).1.finish s (t.advance s n).2 = t.finish s n := by
  cases t with
  | finished r => rfl
  | ready =>
      cases hcluster : s.cluster with
      | error fault => simp only [advance, finish, hcluster, Scan.run_of_fault hcluster]
      | ok dir =>
          cases hstops : Scan.stops s.view (dir / Layout.currentName) with
          | error e =>
              simp only [advance, finish, hcluster, hstops, Scan.run_of_unreadable hcluster hstops]
          | ok ss =>
              simp only [advance, finish, hcluster, hstops, Scan.run, Scan.walk, List.nil_append]
              split <;> rfl
  | walking ahead found =>
      cases ahead with
      | nil => simp [advance, finish, Scan.visitAll]
      | cons stop ahead =>
          rcases Bool.eq_false_or_eq_true (Scan.visit s.toLoading n.catalog stop).1.isLast with
            hlast | hlast
          · by_cases hcrash : (Scan.visit s.toLoading n.catalog stop).1 = .crashed
            · simp [advance, visit, behind, finish, Scan.visitAll_of_last ahead hlast, hcrash]
            · simp [advance, visit, behind, finish, Scan.visitAll_of_last ahead hlast, hlast, hcrash,
                Ne.symm hcrash]
          · have hcrash : (Scan.visit s.toLoading n.catalog stop).1 ≠ .crashed := by
              intro heq
              simp [heq, Finding.isLast] at hlast
            simp [advance, visit, behind, finish, Scan.visitAll_of_not_last ahead hlast, hlast, hcrash,
              Ne.symm hcrash]

/-! ## The end of the work -/

/-- How many steps a worker still needs. -/
def remaining (s : Scan) : Task → Nat
  | .ready =>
    match s.cluster with
    | .error _ => 1
    | .ok dir =>
      match Scan.stops s.view (dir / Layout.currentName) with
      | .error _ => 1
      | .ok ss => ss.length + 2
  | .walking ahead _ => ahead.length + 1
  | .finished _ => 0

/-- The work has come to its end. -/
def Done (t : Task) : Prop := ∃ r, t = .finished r

/-- **Every step brings the work nearer to its end.** -/
theorem remaining_advance {t : Task} (h : ¬ t.Done) (n : Node) :
    (t.advance s n).1.remaining s < t.remaining s := by
  cases t with
  | finished r => exact absurd ⟨r, rfl⟩ h
  | ready =>
      cases hcluster : s.cluster with
      | error fault => simp [advance, remaining, hcluster]
      | ok dir =>
          cases hstops : Scan.stops s.view (dir / Layout.currentName) <;>
            simp [advance, remaining, hcluster, hstops]
  | walking ahead found =>
      cases ahead with
      | nil => simp [advance, remaining]
      | cons stop ahead =>
          simp only [advance, behind]
          split
          · simp [remaining]
          · split <;> simp [remaining]

/-! ## What the work concerns -/

/-- The numbers of the directories that are ahead of a worker. -/
def Within (s : Scan) (ids : ContainerId → Prop) : Task → Prop
  | .ready => ∀ p ∈ s.processed, ids p.2
  | .walking ahead _ => ∀ p ∈ Scan.offers ahead, ids p.2
  | .finished _ => True

end Task

variable {ids : ContainerId → Prop} {s : Scan}

/-- The catalog has the last word on what has been loaded. -/
def take (a : Attempt) (n : Node) : Attempt × Node :=
  let (a, c, _) := Catalog.admit n.catalog a
  (a, { n with catalog := c })

theorem take_of_some {n : Node} {x old : Container} (h : n.catalog.get? x.id = some old) :
    take (.loaded x) n = (.skipped (.duplicate ⟨x.id, old.volume, x.volume⟩), n) := by
  simp only [take, Catalog.admit_of_some h]

theorem take_of_none {n : Node} {x : Container} (h : n.catalog.get? x.id = none) :
    ∃ c', take (.loaded x) n = (.loaded x, { n with catalog := c' }) ∧ n.catalog.Gains x c' := by
  obtain ⟨c', htakes, hg⟩ := Catalog.admit_of_none h
  exact ⟨c', by simp only [take, htakes], hg⟩

/-- A container is taken into the catalog under its own number. -/
theorem local_take {x : Container} (hid : ids x.id) : Local ids (take (.loaded x)) where
  result_eq {n m} h := by
    have hget := h x.id hid
    cases hn : n.catalog.get? x.id with
    | some old => rw [take_of_some hn, take_of_some (hget ▸ hn)]
    | none =>
        obtain ⟨_, htakes, -⟩ := take_of_none hn
        obtain ⟨_, htakes', -⟩ := take_of_none (n := m) (hget ▸ hn)
        rw [htakes, htakes']
  agree {n m} h := by
    intro id hid'
    have hget := h x.id hid
    cases hn : n.catalog.get? x.id with
    | some old =>
        rw [take_of_some hn, take_of_some (hget ▸ hn)]
        exact h id hid'
    | none =>
        obtain ⟨_, htakes, hg⟩ := take_of_none hn
        obtain ⟨_, htakes', hg'⟩ := take_of_none (n := m) (hget ▸ hn)
        rw [htakes, htakes', hg.entries, hg'.entries, h id hid']
  keeps n id hne := by
    cases hn : n.catalog.get? x.id with
    | some old => rw [take_of_some hn]
    | none =>
        obtain ⟨_, htakes, hg⟩ := take_of_none hn
        rw [htakes]
        exact hg.get?_of_ne fun heq => hne (heq ▸ hid)
  fails {n m} h := by
    have hregistry : ∀ n : Node, (take (.loaded x) n).2.registry = n.registry := fun _ => rfl
    exact ⟨[], hregistry n, hregistry m⟩

theorem visit_of_none {l : Loading} {dir : FilePath} (h : Scan.containerId? dir = none) (n : Node) :
    visit l (.candidate dir) n = (.malformedName dir, n) := by
  rw [visit, Scan.visit_malformed h]

/-- A visit to a directory with a number takes what is loaded from it. -/
theorem visit_of_some {l : Loading} {dir : FilePath} {id : ContainerId}
    (h : Scan.containerId? dir = some id) (n : Node) :
    visit l (.candidate dir) n =
      (Scan.finding id dir (take (l.examine id dir) n).1, (take (l.examine id dir) n).2) := by
  obtain ⟨hfinding, hcatalog⟩ := Scan.visit_candidate (l := l) h n.catalog
  rw [visit, hfinding, hcatalog]
  rfl

/-- **A visit concerns the number of the directory.** -/
theorem local_visit {l : Loading} {stop : Stop} (h : ∀ p ∈ Scan.offers [stop], ids p.2) :
    Local ids (visit l stop) := by
  cases stop with
  | unreadableGroup dir cause => exact .pure ids _
  | candidate dir =>
      cases hid : Scan.containerId? dir with
      | none =>
          rw [funext (visit_of_none (l := l) hid)]
          exact .pure ids _
      | some id =>
          have hids : ids id := h (dir, id) (by simp [Scan.offers_candidate hid])
          rw [funext (visit_of_some (l := l) hid)]
          cases hexamine : l.examine id dir with
          | loaded x =>
              obtain ⟨rfl, -⟩ := Loading.loaded_of_examine hexamine
              exact (local_take hids).map (Scan.finding x.id dir)
          | skipped cause => exact .pure ids _
          | crashed => exact .pure ids _

/-- What a stop offers is offered first. -/
theorem mem_offers_cons {p : FilePath × ContainerId} {stop : Stop} (ahead : List Stop)
    (hp : p ∈ Scan.offers [stop]) : p ∈ Scan.offers (stop :: ahead) := by
  cases stop with
  | unreadableGroup dir cause => exact absurd hp List.not_mem_nil
  | candidate dir =>
      cases hid : Scan.containerId? dir with
      | none =>
          rw [Scan.offers_malformed hid] at hp
          exact absurd hp List.not_mem_nil
      | some id =>
          rw [Scan.offers_candidate hid] at hp ⊢
          obtain rfl := List.mem_singleton.mp hp
          exact List.mem_cons_self

/-- If the walk goes on behind a stop, what is offered there is offered. -/
theorem mem_offers_of_behind {l : Loading} {n : Node} {p : FilePath × ContainerId} {stop : Stop}
    {ahead : List Stop} (hlast : (visit l stop n).1.isLast = false) (hp : p ∈ Scan.offers ahead) :
    p ∈ Scan.offers (stop :: ahead) := by
  cases stop with
  | unreadableGroup dir cause => exact hp
  | candidate dir =>
      cases hid : Scan.containerId? dir with
      | none => simp [visit, Scan.visit, hid, Finding.isLast] at hlast
      | some id =>
          rw [Scan.offers_candidate hid]
          exact List.mem_cons_of_mem _ hp

namespace Task

/-- What is ahead after a step was ahead before it. -/
theorem within_advance {t : Task} (h : t.Within s ids) (n : Node) :
    (t.advance s n).1.Within s ids := by
  cases t with
  | finished r => trivial
  | ready =>
      cases hcluster : s.cluster with
      | error fault => simp [advance, hcluster, Within]
      | ok dir =>
          cases hstops : Scan.stops s.view (dir / Layout.currentName) with
          | error e => simp [advance, hcluster, hstops, Within]
          | ok ss =>
              rw [Within, Scan.processed_of_stops hcluster hstops] at h
              simpa only [advance, hcluster, hstops, Within] using h
  | walking ahead found =>
      cases ahead with
      | nil => trivial
      | cons stop ahead =>
          simp only [advance, behind]
          split
          · trivial
          · split
            · trivial
            · next hlast =>
                exact fun p hp => h p (mem_offers_of_behind (by simpa using hlast) hp)

/-- **A step concerns the numbers that are ahead.** -/
theorem local_advance {t : Task} (h : t.Within s ids) : Local ids (t.advance s) := by
  cases t with
  | finished r => exact .pure ids (finished r)
  | ready =>
      cases hcluster : s.cluster with
      | error fault =>
          have hfail : advance s ready = fun n =>
              (finished (some { s.report [] with failure := some fault }),
                { n with registry := (n.registry.fail s.root).1 }) := by
            funext n
            simp only [advance, hcluster]
          rw [hfail]
          exact ⟨fun _ => rfl, fun h => h, fun _ _ _ => rfl, fun _ => ⟨[s.root], rfl, rfl⟩⟩
      | ok dir =>
          have hstart : ∃ t, advance s ready = fun n => (t, n) := by
            cases hstops : Scan.stops s.view (dir / Layout.currentName) with
            | error e =>
                refine ⟨finished (some (s.report [])), funext fun n => ?_⟩
                simp only [advance, hcluster, hstops]
            | ok ss =>
                refine ⟨walking ss [], funext fun n => ?_⟩
                simp only [advance, hcluster, hstops]
          obtain ⟨t, ht⟩ := hstart
          rw [ht]
          exact .pure ids t
  | walking ahead found =>
      cases ahead with
      | nil => exact .pure ids (finished (some (s.report found)))
      | cons stop ahead =>
          exact (local_visit fun p hp => h p (mem_offers_cons ahead hp)).map (behind s ahead found)

/-- **The rest of the work concerns the numbers that are ahead.** -/
theorem local_finish {t : Task} (h : t.Within s ids) : Local ids (t.finish s) := by
  induction hk : t.remaining s using Nat.strongRecOn generalizing t with
  | ind k ih =>
      by_cases hdone : t.Done
      · obtain ⟨r, rfl⟩ := hdone
        exact .pure ids r
      · have hsteps : t.finish s = fun n => (t.advance s n).1.finish s (t.advance s n).2 :=
          funext fun n => (finish_advance t n).symm
        rw [hsteps]
        exact (local_advance h).bind (g := fun t => t.finish s) fun n =>
          ih _ (hk ▸ remaining_advance hdone n) (within_advance h n) rfl

end Task

end Node

end StorageNode
