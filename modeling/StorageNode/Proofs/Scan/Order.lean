import Mathlib.Data.List.Forall2
import StorageNode.Proofs.Scan

/-!
# The order of a scan

A scan goes over the sub-directories of the groups, group by group and in byte order of the names
(`DiskView.Ahead`), up to the first one that is not named by a number. `Scan.run_accounts` says that
its report is an account of just these directories: each is there once, as loaded or as skipped, in
the order in which they were come to (`Scan.Accounts`), and that no group behind the last of them is
visited (`Scan.Visits`).

The findings of a walk are matched with its stops one by one (`Scan.Finds`, `Walks.covers`), and a
report reads two lists off the findings; what is said of stops and findings is carried over to
directories and lists at the end.
-/

namespace StorageNode

/-- The sub-directories of some directories, group by group; a group that cannot be listed adds
none. -/
inductive DiskView.Ahead (v : DiskView) : List FilePath → List FilePath → Prop
  | nil : Ahead v [] []
  | listed {g : FilePath} {gs ds walk : List FilePath} (h : v.Subdirectories g ds)
      (hrest : Ahead v gs walk) : Ahead v (g :: gs) (ds ++ walk)
  | unlisted {g : FilePath} {gs walk : List FilePath} {e : DiskError} (h : v.list g = .error e)
      (hrest : Ahead v gs walk) : Ahead v (g :: gs) walk

/-- A group that cannot be listed, and why. -/
def DiskView.unlisted? (v : DiskView) (g : FilePath) : Option (FilePath × DiskError) :=
  match v.list g with
  | .error e => some (g, e)
  | .ok _ => none

/-- The group that the log says cannot be listed. -/
def Event.unlisted? : Event → Option (FilePath × DiskError)
  | .groupUnreadable _ g e => some (g, e)
  | _ => none

namespace Scan

/-- A directory is named by a number. -/
def Numbered (dir : FilePath) (id : ContainerId) : Prop :=
  ∃ name, dir.fileName? = some name ∧ ContainerId.Spells name (UInt64.toNat id)

theorem containerId?_eq_some_iff {dir : FilePath} {id : ContainerId} :
    containerId? dir = some id ↔ Numbered dir id := by
  simp [containerId?, Numbered, Option.bind_eq_some_iff, ContainerId.ofName?_eq_some_iff]

/-- What a report says of one directory: nothing is wrong with a container that is loaded. -/
structure Account where
  dir : FilePath
  id : ContainerId
  cause : Option LoadError

namespace Account

/-- The container is loaded. -/
def loaded? (a : Account) : Option ContainerId := if a.cause = none then some a.id else none

/-- The container is skipped. -/
def skipped? (a : Account) : Option SkippedContainer := a.cause.map fun e => ⟨a.id, a.dir, e⟩

end Account

/-- **A report is an account of a walk** up to the directories that are still ahead, the first of
which stopped it. -/
structure Accounts (walk : List FilePath) (report : ScanReport) (as : List Account)
    (ahead : List FilePath) : Prop where
  /-- Every directory of the walk is accounted for, or is ahead. -/
  split : walk = as.map (·.dir) ++ ahead
  numbered : ∀ a ∈ as, Numbered a.dir a.id
  /-- The account is the longest one. -/
  longest : ∀ dir, ahead.head? = some dir → ∀ id, ¬ Numbered dir id
  once : (as.map (·.dir)).Nodup
  loaded : report.loaded = as.filterMap Account.loaded?
  skipped : report.skipped = as.filterMap Account.skipped?
  aborted : report.aborted = ahead.head?

/-- **The groups that a scan visits**: all, or those up to the one where it is stopped; the log tells
of those among them that cannot be listed. -/
structure Visits (v : DiskView) (report : ScanReport) (events : List Event)
    (visited later : List FilePath) : Prop where
  complete : report.aborted = none → later = []
  stopped : ∀ dir, report.aborted = some dir →
    ∃ g ds, visited.getLast? = some g ∧ v.Subdirectories g ds ∧ dir ∈ ds
  logged : events.filterMap Event.unlisted? = visited.filterMap v.unlisted?

/-! ## Stops and findings -/

/-- The directory of a stop. -/
def Stop.candidate? : Stop → Option FilePath
  | .candidate dir => some dir
  | .unreadableGroup .. => none

/-- The group at a stop. -/
def Stop.unlisted? : Stop → Option (FilePath × DiskError)
  | .unreadableGroup g e => some (g, e)
  | .candidate _ => none

/-- A finding at a stop that is not the last one. -/
inductive Finds : Stop → Finding → Prop
  | group (g : FilePath) (e : DiskError) : Finds (.unreadableGroup g e) (.unreadableGroup g e)
  | loaded {dir : FilePath} {id : ContainerId} (h : containerId? dir = some id)
      (state : ContainerState) : Finds (.candidate dir) (.loaded id state)
  | skipped {dir : FilePath} {id : ContainerId} (h : containerId? dir = some id)
      (cause : LoadError) : Finds (.candidate dir) (.skipped ⟨id, dir, cause⟩)

/-- Where a walk ends: nothing is ahead, or a directory without a number is next and is the last
finding. -/
inductive Ends : List Stop → List Finding → Prop
  | complete : Ends [] []
  | stopped {dir : FilePath} (h : containerId? dir = none) (later : List Stop) :
      Ends (.candidate dir :: later) [.malformedName dir]

theorem finds_finding {l : Loading} {dir : FilePath} {id : ContainerId} {c c' : Catalog}
    {a : Attempt} (hid : containerId? dir = some id) (h : l.Decided dir id c a c') :
    Finds (.candidate dir) (finding id dir a) := by
  rcases h.gains_or_eq with ⟨x, rfl, -⟩ | ⟨cause, rfl, -⟩
  · exact .loaded hid x.state
  · exact .skipped hid cause

/-- **The findings of a walk match its stops**, up to where it ends. -/
theorem Walks.covers {l : Loading} {c c' : Catalog} {ss : List Stop} {fs : List Finding}
    (h : Walks l c ss fs c') :
    ∃ done ahead found last, ss = done ++ ahead ∧ fs = found ++ last ∧
      List.Forall₂ Finds done found ∧ Ends ahead last := by
  induction h with
  | done c => exact ⟨[], [], [], [], rfl, rfl, .nil, .complete⟩
  | @unreadable _ _ dir cause _ _ _ ih =>
      obtain ⟨done, ahead, found, last, rfl, rfl, hfinds, hends⟩ := ih
      exact ⟨_ :: done, ahead, _ :: found, last, rfl, rfl, .cons (.group dir cause) hfinds, hends⟩
  | malformed c ss hid => exact ⟨[], _, [], _, rfl, rfl, .nil, .stopped hid ss⟩
  | candidate hid ha _ ih =>
      obtain ⟨done, ahead, found, last, rfl, rfl, hfinds, hends⟩ := ih
      exact ⟨_ :: done, ahead, _ :: found, last, rfl, rfl, .cons (finds_finding hid ha) hfinds,
        hends⟩

/-! ## Reports and logs read off findings -/

/-- The group that cannot be listed. -/
def Finding.unlisted? : Finding → Option (FilePath × DiskError)
  | .unreadableGroup g e => some (g, e)
  | _ => none

theorem mem_loaded_report {s : Scan} {fs : List Finding} (id : ContainerId) :
    id ∈ (s.report fs).loaded ↔ ∃ state, .loaded id state ∈ fs := by
  rw [loaded_report, List.mem_filterMap]
  constructor
  · rintro ⟨f, hf, hid⟩
    cases f with
    | loaded id' state =>
        obtain rfl : id' = id := Option.some.inj hid
        exact ⟨state, hf⟩
    | _ => simp [Finding.loaded?] at hid
  · rintro ⟨state, hf⟩
    exact ⟨_, hf, rfl⟩

/-- Matched findings give an account of the directories among the stops. -/
theorem exists_accounts {done : List Stop} {found : List Finding}
    (h : List.Forall₂ Finds done found) :
    ∃ as : List Account, as.map (·.dir) = done.filterMap Stop.candidate? ∧
      (∀ a ∈ as, Numbered a.dir a.id) ∧
      found.filterMap Finding.loaded? = as.filterMap Account.loaded? ∧
      found.filterMap Finding.skipped? = as.filterMap Account.skipped? := by
  induction h with
  | nil => exact ⟨[], rfl, by simp, rfl, rfl⟩
  | @cons stop f _ _ hfind _ ih =>
      obtain ⟨as, hdirs, hnum, hloaded, hskipped⟩ := ih
      cases hfind with
      | group g e => exact ⟨as, hdirs, hnum, hloaded, hskipped⟩
      | @loaded dir id hid state =>
          refine ⟨⟨dir, id, none⟩ :: as, congrArg (dir :: ·) hdirs, ?_, congrArg (id :: ·) hloaded,
            hskipped⟩
          exact List.forall_mem_cons.mpr ⟨containerId?_eq_some_iff.mp hid, hnum⟩
      | @skipped dir id hid cause =>
          refine ⟨⟨dir, id, some cause⟩ :: as, congrArg (dir :: ·) hdirs, ?_, hloaded,
            congrArg (SkippedContainer.mk id dir cause :: ·) hskipped⟩
          exact List.forall_mem_cons.mpr ⟨containerId?_eq_some_iff.mp hid, hnum⟩

/-- Matched findings stop nothing, and are of the same groups. -/
theorem malformed_of_finds {done : List Stop} {found : List Finding}
    (h : List.Forall₂ Finds done found) :
    found.findSome? Finding.malformed? = none ∧
      found.filterMap Finding.unlisted? = done.filterMap Stop.unlisted? := by
  induction h with
  | nil => exact ⟨rfl, rfl⟩
  | cons hfind _ ih =>
      obtain ⟨hmal, hunl⟩ := ih
      cases hfind with
      | group g e => exact ⟨hmal, congrArg ((g, e) :: ·) hunl⟩
      | loaded | skipped => exact ⟨hmal, hunl⟩

section

variable {l : Loading}

/-- The catalog says nothing of groups. -/
theorem unlisted_visit (c : Catalog) (stop : Stop) :
    (visit l c stop).2.2.filterMap Event.unlisted? = [] := by
  cases stop with
  | unreadableGroup g e => rfl
  | candidate dir =>
      cases hid : containerId? dir with
      | none =>
          rw [visit_malformed hid]
          rfl
      | some id =>
          rcases visit_numbered (l := l) hid c with ⟨x, c', hvisit, -⟩ | ⟨cause, hvisit⟩ | hvisit
          all_goals
            rw [hvisit]
            rfl

/-- The log tells of the groups that are found not to be listed, and of no others. -/
theorem unlisted_visitAll : ∀ (ss : List Stop) (c : Catalog),
    (visitAll l c ss).2.2.filterMap Event.unlisted? =
      (visitAll l c ss).1.filterMap Finding.unlisted?
  | [], _ => rfl
  | stop :: rest, c => by
      have hvisit := unlisted_visit (l := l) c stop
      have hevents : ∀ f : Finding, (f.events l.volume).filterMap Event.unlisted? =
          [f].filterMap Finding.unlisted? := by
        intro f
        cases f <;> rfl
      cases hlast : (visit l c stop).1.isLast with
      | true =>
          rw [visitAll_of_last rest hlast, List.filterMap_append, hvisit, hevents, List.nil_append]
      | false =>
          rw [visitAll_of_not_last rest hlast, List.filterMap_append, List.filterMap_append, hvisit,
            hevents, unlisted_visitAll rest, List.nil_append, ← List.filterMap_append,
            List.singleton_append]

end

/-! ## Groups and their directories -/

section

variable {v : DiskView}

/-- The directories of the stops in a group are its sub-directories. -/
theorem ahead_stops : ∀ groups : List FilePath,
    v.Ahead groups ((groups.flatMap (stopsIn v)).filterMap Stop.candidate?)
  | [] => .nil
  | g :: gs => by
      have ih := ahead_stops gs
      rw [List.flatMap_cons, List.filterMap_append]
      cases hsub : v.subdirectories g with
      | error e =>
          have hstops : stopsIn v g = [.unreadableGroup g e] := by simp [stopsIn, hsub]
          rw [hstops]
          exact .unlisted (DiskView.subdirectories_eq_error_iff.mp hsub) ih
      | ok ds =>
          have hstops : (stopsIn v g).filterMap Stop.candidate? = ds := by
            simp [stopsIn, hsub, List.filterMap_map, Function.comp_def, Stop.candidate?]
          rw [hstops]
          exact .listed (DiskView.subdirectories_eq_ok_iff.mp hsub) ih

/-- The groups of the stops are those that cannot be listed. -/
theorem unlisted_stops (groups : List FilePath) :
    (groups.flatMap (stopsIn v)).filterMap Stop.unlisted? = groups.filterMap v.unlisted? := by
  induction groups with
  | nil => rfl
  | cons g gs ih =>
      rw [List.flatMap_cons, List.filterMap_append, ih]
      cases hsub : v.subdirectories g with
      | error e =>
          have hlist := DiskView.subdirectories_eq_error_iff.mp hsub
          simp [stopsIn, hsub, Stop.unlisted?, DiskView.unlisted?, hlist]
      | ok ds =>
          obtain ⟨-, ⟨⟨all, hall, -⟩, -⟩, -⟩ := DiskView.subdirectories_eq_ok_iff.mp hsub
          simp [stopsIn, hsub, List.filterMap_map, Function.comp_def, Stop.unlisted?,
            DiskView.unlisted?, hall]

/-- What is ahead lies in the groups. -/
theorem exists_group_of_mem {groups walk : List FilePath} (h : v.Ahead groups walk)
    {dir : FilePath} (hdir : dir ∈ walk) :
    ∃ g ∈ groups, ∃ ds, v.Subdirectories g ds ∧ dir ∈ ds := by
  induction h with
  | nil => simp at hdir
  | @listed g _ ds _ hds _ ih =>
      rcases List.mem_append.mp hdir with hhere | hrest
      · exact ⟨g, List.mem_cons_self, ds, hds, hhere⟩
      · obtain ⟨g', hg', hds'⟩ := ih hrest
        exact ⟨g', List.mem_cons_of_mem _ hg', hds'⟩
  | unlisted _ _ ih =>
      obtain ⟨g', hg', hds'⟩ := ih hdir
      exact ⟨g', List.mem_cons_of_mem _ hg', hds'⟩

/-- A directory lies in one group only. -/
theorem eq_of_mem_subdirectories (hv : v.WellNamed) {current g g' dir : FilePath} {n n' : String}
    {ds ds' : List FilePath} (hn : FilePath.IsName n) (hn' : FilePath.IsName n')
    (hg : g = current / n) (hg' : g' = current / n') (hds : v.Subdirectories g ds)
    (hds' : v.Subdirectories g' ds') (hdir : dir ∈ ds) (hdir' : dir ∈ ds') : g = g' := by
  obtain ⟨m, hm, hdm, -⟩ := DiskView.exists_name_of_mem_subdirectories hv
    (DiskView.subdirectories_eq_ok_iff.mpr hds) hdir
  obtain ⟨m', hm', hdm', -⟩ := DiskView.exists_name_of_mem_subdirectories hv
    (DiskView.subdirectories_eq_ok_iff.mpr hds') hdir'
  have hcomponents : g.components ++ [.name m] = g'.components ++ [.name m'] := by
    rw [← FilePath.components_join g hm, ← FilePath.components_join g' hm', ← hdm, ← hdm']
  have hgroups := (List.append_inj' hcomponents rfl).1
  rw [hg, hg', FilePath.components_join _ hn, FilePath.components_join _ hn'] at hgroups
  obtain ⟨rfl⟩ : n = n' := by simpa using hgroups
  rw [hg, hg']

/-- **Nothing is ahead twice.** -/
theorem nodup_ahead (hv : v.WellNamed) {current : FilePath} {groups walk : List FilePath}
    (hnames : ∀ g ∈ groups, ∃ n, FilePath.IsName n ∧ g = current / n) (hgroups : groups.Nodup)
    (h : v.Ahead groups walk) : walk.Nodup := by
  induction h with
  | nil => exact .nil
  | @listed g gs ds walk hds hrest ih =>
      obtain ⟨hg, hgs⟩ := List.nodup_cons.mp hgroups
      obtain ⟨⟨n, hn, hgn⟩, hnames'⟩ := List.forall_mem_cons.mp hnames
      have hnodup := DiskView.nodup_subdirectories hv (DiskView.subdirectories_eq_ok_iff.mpr hds)
      refine List.nodup_append.mpr ⟨hnodup, ih hnames' hgs, ?_⟩
      rintro dir hdir _ hdir' rfl
      obtain ⟨g', hg', ds', hds', hmem⟩ := exists_group_of_mem hrest hdir'
      obtain ⟨n', hn', hgn'⟩ := hnames' g' hg'
      exact hg (eq_of_mem_subdirectories hv hn hn' hgn hgn' hds hds' hdir hmem ▸ hg')
  | unlisted _ _ ih =>
      exact ih (List.forall_mem_cons.mp hnames).2 (List.nodup_cons.mp hgroups).2

/-- An element of lists put together is an element of one of them, behind all the earlier lists. -/
theorem exists_split_flatMap {α β : Type} {f : α → List β} {xs : List α} {done later : List β}
    {b : β} (h : xs.flatMap f = done ++ b :: later) :
    ∃ before x behind d₁ d₂, xs = before ++ x :: behind ∧ f x = d₁ ++ b :: d₂ ∧
      done = before.flatMap f ++ d₁ := by
  induction xs generalizing done with
  | nil => simp at h
  | cons x xs ih =>
      rw [List.flatMap_cons] at h
      rcases List.append_eq_append_iff.mp h with ⟨more, rfl, hxs⟩ | ⟨more, hx, hrest⟩
      · obtain ⟨before, y, behind, d₁, d₂, rfl, hy, rfl⟩ := ih hxs
        exact ⟨x :: before, y, behind, d₁, d₂, rfl, hy, by simp⟩
      · cases more with
        | nil =>
            obtain ⟨before, y, behind, d₁, d₂, rfl, hy, hnil⟩ := @ih [] hrest.symm
            refine ⟨x :: before, y, behind, d₁, d₂, rfl, hy, ?_⟩
            rw [List.flatMap_cons, List.append_assoc, ← hnil, hx, List.append_nil, List.append_nil]
        | cons b' more =>
            obtain ⟨rfl, -⟩ := List.cons.inj hrest
            exact ⟨[], x, xs, done, more, rfl, hx, rfl⟩

/-- Where a walk is stopped, some groups are visited, the last of them the one of the directory that
stops it, and the rest is not. -/
theorem exists_visited {groups : List FilePath} {done later : List Stop} {dir : FilePath}
    (h : groups.flatMap (stopsIn v) = done ++ .candidate dir :: later) :
    ∃ before g behind ds, groups = before ++ g :: behind ∧ v.Subdirectories g ds ∧ dir ∈ ds ∧
      done.filterMap Stop.unlisted? = (before ++ [g]).filterMap v.unlisted? := by
  obtain ⟨before, g, behind, d₁, d₂, rfl, hg, rfl⟩ := exists_split_flatMap h
  have hunlisted : (d₁ ++ .candidate dir :: d₂).filterMap Stop.unlisted? =
      [g].filterMap v.unlisted? := by
    rw [← hg, ← unlisted_stops, List.flatMap_singleton]
  have hmem : Stop.candidate dir ∈ stopsIn v g := by
    rw [hg]
    simp
  cases hsub : v.subdirectories g with
  | error e => simp [stopsIn, hsub] at hmem
  | ok ds =>
      have hdir : dir ∈ ds := by simpa [stopsIn, hsub] using hmem
      have hnil : d₁.filterMap Stop.unlisted? = [] ∧ [g].filterMap v.unlisted? = [] := by
        have hall : (stopsIn v g).filterMap Stop.unlisted? = [] := by
          simp [stopsIn, hsub, Stop.unlisted?]
        rw [← hunlisted, ← hg]
        rw [hg, List.filterMap_append] at hall
        exact ⟨(List.append_eq_nil_iff.mp hall).1, by rw [hg, List.filterMap_append, hall]⟩
      refine ⟨before, g, behind, ds, rfl, DiskView.subdirectories_eq_ok_iff.mp hsub, hdir, ?_⟩
      rw [List.filterMap_append, List.filterMap_append, unlisted_stops, hnil.1, hnil.2]

end

/-! ## The catalog behind a walk -/

section

variable {l : Loading} {c c' : Catalog} {ss : List Stop} {fs : List Finding}

/-- What is in the catalog stays. -/
theorem Walks.get?_of_some (h : Walks l c ss fs c') {id : ContainerId} {x : Container}
    (hx : c.get? id = some x) : c'.get? id = some x := by
  induction h with
  | done => exact hx
  | unreadable _ ih => exact ih hx
  | malformed => exact hx
  | candidate _ ha _ ih =>
      rcases ha.gains_or_eq with ⟨y, -, -, -, hg⟩ | ⟨-, -, rfl⟩
      · exact ih (hg.get?_of_some hx)
      · exact ih hx

/-- What is found to be loaded is in the catalog behind the walk, as a container of the volume. -/
theorem Walks.get?_of_loaded (h : Walks l c ss fs c') {id : ContainerId} {state : ContainerState}
    (hid : .loaded id state ∈ fs) :
    ∃ x, c'.get? id = some x ∧ x.id = id ∧ x.volume = l.volume ∧ x.state = state := by
  induction h with
  | done | malformed => simp at hid
  | unreadable _ ih => exact ih (by simpa using hid)
  | candidate _ ha hrest ih =>
      rcases ha.gains_or_eq with ⟨x, rfl, hx, hvol, hg⟩ | ⟨cause, rfl, -⟩
      · rcases List.mem_cons.mp hid with hhere | hlater
        · obtain ⟨rfl, rfl⟩ : id = _ ∧ state = x.state := by simpa [finding] using hhere
          exact ⟨x, hrest.get?_of_some (hx ▸ hg.get?_self), hx, hvol, rfl⟩
        · exact ih hlater
      · exact ih (by simpa [finding] using hid)

/-- Other numbers have what they had. -/
theorem Walks.get?_of_not_loaded (h : Walks l c ss fs c') {id : ContainerId}
    (hid : ∀ state, .loaded id state ∉ fs) : c'.get? id = c.get? id := by
  induction h with
  | done | malformed => rfl
  | unreadable _ ih => exact ih fun state hs => hid state (List.mem_cons_of_mem _ hs)
  | candidate _ ha _ ih =>
      have hrest := ih fun state hs => hid state (List.mem_cons_of_mem _ hs)
      rcases ha.gains_or_eq with ⟨x, rfl, hx, -, hg⟩ | ⟨cause, rfl, rfl⟩
      · have hne : id ≠ x.id := by
          rintro rfl
          exact hid x.state (by simp [finding, hx])
        rw [hrest, hg.get?_of_ne hne]
      · exact hrest

end

/-! ## What is loaded -/

section

variable {l : Loading} {c c' : Catalog} {ss : List Stop} {fs : List Finding}

/-- A walk is stopped by the first directory that no number names, and by nothing else. -/
theorem Walks.malformed_eq_none_iff (h : Walks l c ss fs c') :
    fs.findSome? Finding.malformed? = none ↔
      ∀ dir, .candidate dir ∈ ss → ∃ id, containerId? dir = some id := by
  induction h with
  | done => simp
  | unreadable _ ih => simpa [Finding.malformed?] using ih
  | malformed c ss hid => simp [Finding.malformed?, hid]
  | @candidate _ _ _ dir id a ss fs hid ha _ ih =>
      have hnone : (finding id dir a).malformed? = none := by
        rcases ha.gains_or_eq with ⟨x, rfl, -⟩ | ⟨cause, rfl, -⟩ <;> rfl
      rw [List.findSome?_cons, hnone, ih]
      constructor
      · intro h dir' hmem
        rcases List.mem_cons.mp hmem with heq | hrest
        · obtain rfl := Stop.candidate.inj heq
          exact ⟨id, hid⟩
        · exact h dir' hrest
      · exact fun h dir' hmem => h dir' (List.mem_cons_of_mem _ hmem)

/-- What is loaded meets all conditions, in a directory of its number. -/
theorem Walks.exists_typed (h : Walks l c ss fs c') {id : ContainerId} {state : ContainerState}
    (hid : .loaded id state ∈ fs) :
    ∃ dir d settings, .candidate dir ∈ ss ∧ containerId? dir = some id ∧
      l.Typed dir id d settings := by
  induction h with
  | done | malformed => simp at hid
  | unreadable _ ih =>
      obtain ⟨dir, d, settings, hmem, hdir⟩ := ih (by simpa using hid)
      exact ⟨dir, d, settings, List.mem_cons_of_mem _ hmem, hdir⟩
  | candidate hnum ha _ ih =>
      rcases List.mem_cons.mp hid with hhere | hlater
      · cases ha with
        | loaded ht =>
            obtain ⟨rfl, -⟩ := Finding.loaded.inj hhere
            exact ⟨_, _, _, List.mem_cons_self, hnum, ht⟩
        | _ => simp [finding] at hhere
      · obtain ⟨dir, d, settings, hmem, hdir⟩ := ih hlater
        exact ⟨dir, d, settings, List.mem_cons_of_mem _ hmem, hdir⟩

/-- **A container that meets all conditions is loaded**, if the walk comes to its directory, no other
has the same number, and the number was not taken before. -/
theorem Walks.loads (h : Walks l c ss fs c') {parent : FilePath} {name : String} {id : ContainerId}
    {d : Descriptor} {settings : ContainerSettings} (hname : FilePath.IsName name)
    (hid : containerId? (parent / name) = some id) (hmem : .candidate (parent / name) ∈ ss)
    (hnumbered : ∀ dir, .candidate dir ∈ ss → ∃ m, containerId? dir = some m)
    (honly : ∀ dir, .candidate dir ∈ ss → containerId? dir = some id → dir = parent / name)
    (ht : l.Typed (parent / name) id d settings)
    (ha : l.check l.view d settings (.ofDirectory (parent / name) id) = .accepted)
    (hvacant : c.get? id = none) :
    .loaded id d.state ∈ fs ∧
      c'.get? id = some (l.described (parent / name) id d settings) := by
  induction h with
  | done => simp at hmem
  | unreadable _ ih =>
      obtain ⟨hfound, hget⟩ := ih (by simpa using hmem)
        (fun dir hdir => hnumbered dir (List.mem_cons_of_mem _ hdir))
        (fun dir hdir => honly dir (List.mem_cons_of_mem _ hdir)) hvacant
      exact ⟨List.mem_cons_of_mem _ hfound, hget⟩
  | @malformed dir c ss hnone =>
      obtain ⟨m, hm⟩ := hnumbered dir List.mem_cons_self
      exact absurd (hnone.symm.trans hm) (by simp)
  | @candidate _ _ _ dir m _ _ _ hm hdecided hrest ih =>
      by_cases hdir : dir = parent / name
      · subst hdir
        obtain rfl : m = id := Option.some.inj (hm.symm.trans hid)
        obtain ⟨rfl, hgains⟩ := hdecided.eq_loaded hname ht ha hvacant
        exact ⟨List.mem_cons_self, hrest.get?_of_some hgains.get?_self⟩
      · have hne : m ≠ id := fun heq => hdir (honly dir List.mem_cons_self (heq ▸ hm))
        have hvacant' : _ = none := (hdecided.get?_of_ne hne.symm).trans hvacant
        obtain ⟨hfound, hget⟩ := ih (by simpa [Ne.symm hdir] using hmem)
          (fun dir hdir => hnumbered dir (List.mem_cons_of_mem _ hdir))
          (fun dir hdir => honly dir (List.mem_cons_of_mem _ hdir)) hvacant'
        exact ⟨List.mem_cons_of_mem _ hfound, hget⟩

end

/-! ## Reports are accounts -/

/-- What a report says of a walk that ends is an account of the walk. -/
theorem accounts_report {s : Scan} {done ahead : List Stop} {found last : List Finding}
    (hfinds : List.Forall₂ Finds done found) (hends : Ends ahead last)
    (hnodup : ((done ++ ahead).filterMap Stop.candidate?).Nodup) :
    ∃ as, Accounts ((done ++ ahead).filterMap Stop.candidate?) (s.report (found ++ last)) as
      (ahead.filterMap Stop.candidate?) := by
  obtain ⟨as, hdirs, hnum, hloaded, hskipped⟩ := exists_accounts hfinds
  obtain ⟨hmalformed, -⟩ := malformed_of_finds hfinds
  rw [List.filterMap_append, ← hdirs] at hnodup
  refine ⟨as, ?_⟩
  cases hends with
  | complete =>
      exact {
        split := by simp [hdirs]
        numbered := hnum
        longest := by simp
        once := (List.nodup_append.mp hnodup).1
        loaded := by simpa [loaded_report] using hloaded
        skipped := by simpa [skipped_report] using hskipped
        aborted := by simpa [aborted_report] using hmalformed }
  | @stopped dir hdir later =>
      exact {
        split := by rw [List.filterMap_append, hdirs]
        numbered := hnum
        longest := by
          intro dir' hhead id hid
          obtain rfl : dir = dir' := Option.some.inj hhead
          exact absurd (hdir.symm.trans (containerId?_eq_some_iff.mpr hid)) (by simp)
        once := (List.nodup_append.mp hnodup).1
        loaded := by
          rw [loaded_report, List.filterMap_append, hloaded]
          exact List.append_nil _
        skipped := by
          rw [skipped_report, List.filterMap_append, hskipped]
          exact List.append_nil _
        aborted := by
          rw [aborted_report, List.findSome?_append, hmalformed]
          rfl }

/-- Where a walk ends, the groups up to the last directory have been visited. -/
theorem exists_visits {s : Scan} {c : Catalog} {r : Registry} {groups : List FilePath}
    {done ahead : List Stop} {found last : List Finding}
    (hsplit : groups.flatMap (stopsIn s.view) = done ++ ahead) (hfinds : List.Forall₂ Finds done found)
    (hends : Ends ahead last)
    (hevents : (s.run c r).events.filterMap Event.unlisted? =
      (found ++ last).filterMap Finding.unlisted?) :
    ∃ visited later, groups = visited ++ later ∧
      Visits s.view (s.report (found ++ last)) (s.run c r).events visited later := by
  obtain ⟨hmalformed, hunlisted⟩ := malformed_of_finds hfinds
  cases hends with
  | complete =>
      refine ⟨groups, [], (List.append_nil _).symm, fun _ => rfl, fun dir hdir => ?_, ?_⟩
      · simp [aborted_report, hmalformed] at hdir
      · rw [hevents, List.append_nil, hunlisted, ← unlisted_stops, hsplit, List.append_nil]
  | @stopped dir hid later =>
      obtain ⟨before, g, behind, ds, rfl, hds, hdir, hgroups⟩ := exists_visited hsplit
      have haborted : (s.report (found ++ [.malformedName dir])).aborted = some dir := by
        rw [aborted_report, List.findSome?_append, hmalformed]
        rfl
      refine ⟨before ++ [g], behind, by simp, fun hnone => ?_, fun dir' hdir' => ?_, ?_⟩
      · simp [haborted] at hnone
      · obtain rfl : dir = dir' := Option.some.inj (haborted.symm.trans hdir')
        exact ⟨g, ds, by simp, hds, hdir⟩
      · rw [hevents, List.filterMap_append, hunlisted, ← hgroups]
        exact List.append_nil _

/-- **A scan accounts for every directory once and in order**, up to the first one that no number
names. With the groups of its cluster in byte order of their names, and `walk` all the sub-directories
of those that can be listed, in byte order within each: its report is an account of the walk, what is
loaded is in the catalog behind it and everything else there is as before, and no group behind the
directory that stopped the walk is visited. -/
theorem run_accounts (s : Scan) (c : Catalog) (r : Registry) (hview : s.view.WellNamed)
    (hcheck : s.check.NeverCrashes) {cluster : FilePath} {groups : List FilePath}
    (hroot : s.view.Subdirectories s.root [cluster])
    (hcurrent : s.view.Subdirectories (cluster / Layout.currentName) groups) :
    ∃ report walk as ahead visited later,
      (s.run c r).report = some report ∧ report.failure = none ∧
      s.view.Ahead groups walk ∧ Accounts walk report as ahead ∧
      groups = visited ++ later ∧ Visits s.view report (s.run c r).events visited later ∧
      (∀ id ∈ report.loaded, ∃ x, (s.run c r).catalog.get? id = some x ∧ x.volume = s.volume) ∧
      (∀ id ∉ report.loaded, (s.run c r).catalog.get? id = c.get? id) := by
  have hsub := DiskView.subdirectories_eq_ok_iff.mpr hcurrent
  have hcluster : s.cluster = .ok cluster :=
    cluster_eq_ok_iff.mpr (DiskView.subdirectories_eq_ok_iff.mpr hroot)
  have hstops : stops s.view (cluster / Layout.currentName) =
      .ok (groups.flatMap (stopsIn s.view)) := by
    rw [stops, hsub]
    rfl
  have hw := walks_visitAll hcheck c fun _ => named_of_mem_stops hview hstops
  have hrun := run_of_stops (r := r) hcluster hstops hw.not_crashed
  obtain ⟨done, ahead, found, last, hss, hfs, hfinds, hends⟩ := hw.covers
  have hahead := ahead_stops (v := s.view) groups
  have hnames : ∀ g ∈ groups, ∃ n, FilePath.IsName n ∧ g = cluster / Layout.currentName / n := by
    intro g hg
    obtain ⟨n, hn, heq, -⟩ := DiskView.exists_name_of_mem_subdirectories hview hsub hg
    exact ⟨n, hn, heq⟩
  have hnodup := nodup_ahead hview hnames (DiskView.nodup_subdirectories hview hsub) hahead
  have hevents : (s.run c r).events.filterMap Event.unlisted? =
      (found ++ last).filterMap Finding.unlisted? := by
    rw [hrun, List.filterMap_append, unlisted_visitAll, hfs]
    exact List.append_nil _
  obtain ⟨as, haccounts⟩ := accounts_report (s := s) hfinds hends (hss ▸ hnodup)
  obtain ⟨visited, later, hgroups, hvisits⟩ := exists_visits hss hfinds hends hevents
  have hloaded : ∀ id, id ∈ (s.report (found ++ last)).loaded ↔
      ∃ state, .loaded id state ∈ found ++ last := mem_loaded_report
  refine ⟨s.report (found ++ last), _, as, _, visited, later, by rw [hrun, hfs], rfl, hahead,
    hss ▸ haccounts, hgroups, hvisits, fun id hid => ?_, fun id hid => ?_⟩
  · obtain ⟨state, hstate⟩ := (hloaded id).mp hid
    obtain ⟨x, hx, -, hvolume, -⟩ := hw.get?_of_loaded (hfs ▸ hstate)
    exact ⟨x, by rw [hrun]; exact hx, hvolume⟩
  · have hnot : ∀ state, .loaded id state ∉ found ++ last := fun state hstate =>
      hid ((hloaded id).mpr ⟨state, hstate⟩)
    rw [hrun]
    exact hw.get?_of_not_loaded (hfs ▸ hnot)

/-- The sample is accounted for. -/
theorem run_accounts_sample :
    sample.view.WellNamed ∧ sample.check.NeverCrashes ∧
    sample.view.Subdirectories sample.root [⟨"/v/c"⟩] ∧
    sample.view.Subdirectories ⟨"/v/c/current"⟩
      [⟨"/v/c/current/a"⟩, ⟨"/v/c/current/b"⟩, ⟨"/v/c/current/d"⟩] ∧
    ∃ report walk as ahead, (sample.run .empty .empty).report = some report ∧
      sample.view.Ahead [⟨"/v/c/current/a"⟩, ⟨"/v/c/current/b"⟩, ⟨"/v/c/current/d"⟩] walk ∧
      Accounts walk report as ahead := by
  have hroot := DiskView.subdirectories_eq_ok_iff.mp subdirectories_root_sample
  have hcurrent := DiskView.subdirectories_eq_ok_iff.mp subdirectories_current_sample
  have hview := Disk.isTree_sample.wellNamed
  have hcheck := StructureCheck.neverCrashes_indexFile
  obtain ⟨report, walk, as, ahead, -, -, hreport, -, hwalk, haccounts, -⟩ :=
    run_accounts sample .empty .empty hview hcheck hroot hcurrent
  exact ⟨hview, hcheck, hroot, hcurrent, report, walk, as, ahead, hreport, hwalk, haccounts⟩

end Scan

end StorageNode
