import StorageNode.Proofs.Scan.Firsts

/-!
# Where a scan crashes

Only the structure check can crash, and it is asked about a directory last, when everything else about the
container has been found in order. So a scan crashes just if it comes to a directory of which this is true
and on whose number the check crashes (`Loading.Hits`), whatever the catalog holds.

A walk is one by the rules up to the first such directory, and ends there (`Scan.course_visitAll`). The
catalog has gathered by then what lies in the directories in front of it (`Loading.Gathers`), and has
gathered everything if there is no such directory (`Scan.run_of_hit`, `Scan.run_of_no_hit`).
-/

namespace StorageNode

/-- The check crashes on the containers with some numbers, and on no others. -/
def StructureCheck.CrashesOn (check : StructureCheck) (ids : ContainerId → Prop) : Prop :=
  ∀ view d settings paths, check view d settings paths = .crashed ↔ ids d.id

/-- The first element with a property is found at one place. -/
theorem first_unique {α : Type} {p : α → Prop} {as bs cs ds : List α} {a d : α}
    (h : as ++ a :: bs = cs ++ d :: ds) (has : ∀ x ∈ as, ¬ p x) (ha : p a)
    (hcs : ∀ x ∈ cs, ¬ p x) (hd : p d) : as = cs ∧ a = d := by
  induction as generalizing cs with
  | nil =>
      cases cs with
      | nil => exact ⟨rfl, (List.cons.inj h).1⟩
      | cons c cs =>
          obtain ⟨rfl, -⟩ := List.cons.inj h
          exact absurd ha (hcs _ List.mem_cons_self)
  | cons e as ih =>
      cases cs with
      | nil =>
          obtain ⟨rfl, -⟩ := List.cons.inj h
          exact absurd hd (has _ List.mem_cons_self)
      | cons c cs =>
          obtain ⟨rfl, hrest⟩ := List.cons.inj h
          obtain ⟨rfl, rfl⟩ := ih hrest (fun x hx => has x (List.mem_cons_of_mem _ hx))
            fun x hx => hcs x (List.mem_cons_of_mem _ hx)
          exact ⟨rfl, rfl⟩

namespace Loading

variable {l : Loading} {ids : ContainerId → Prop} {dir : FilePath} {id : ContainerId}

/-- **A check that crashes on some numbers is asked about a directory, and crashes**: the directory is that
of such a number, and all that is looked at before the check is in order. -/
def Hits (l : Loading) (ids : ContainerId → Prop) (p : FilePath × ContainerId) : Prop :=
  ids p.2 ∧ ∃ d settings, l.Typed p.1 p.2 d settings

/-- **What a catalog gathers from directories**, one after another: a number that is taken stays as it is,
and one that is vacant is given to the container in the first of its directories that passes all checks. -/
def Gathers (l : Loading) (ds : List (FilePath × ContainerId)) (c c' : Catalog) : Prop :=
  ∀ id x, c'.get? id = some x ↔ c.get? id = some x ∨ c.get? id = none ∧
    ∃ before dir behind, ds = before ++ (dir, id) :: behind ∧ l.Passes dir id x ∧
      ∀ p ∈ before, p.2 = id → ∀ y, ¬ l.Passes p.1 id y

/-! ## Attempts that crash -/

theorem hits_iff (hcheck : l.check.CrashesOn ids) : l.Hits ids (dir, id) ↔ l.Crashes dir id := by
  constructor
  · rintro ⟨hid, d, settings, ht⟩
    exact ⟨d, settings, ht, (hcheck _ _ _ _).mpr (ht.parsed.own ▸ hid)⟩
  · rintro ⟨d, settings, ht, hcrash⟩
    exact ⟨ht.parsed.own ▸ (hcheck _ _ _ _).mp hcrash, d, settings, ht⟩

/-- An attempt that does not crash has the outcome that is decided. -/
theorem decided_of_not_crashes {parent : FilePath} {name : String} (hname : FilePath.IsName name)
    (h : ¬ l.Crashes (parent / name) id) (c : Catalog) :
    l.Decided (parent / name) id c (l.attempt c id (parent / name)).1
      (l.attempt c id (parent / name)).2 := by
  obtain ⟨a, c', hdecided⟩ := (decided_or_crashes (parent / name) id c).resolve_right h
  rw [attempt_of_decided hname hdecided]
  exact hdecided

/-- An attempt that crashes leaves the catalog alone. -/
theorem attempt_of_crashes {parent : FilePath} {name : String} (hname : FilePath.IsName name)
    (h : l.Crashes (parent / name) id) (c : Catalog) :
    l.attempt c id (parent / name) = (.crashed, c) := by
  simp [attempt, examine_of_crashes hname h, Catalog.admit]

/-! ## What is gathered -/

/-- A directory that passes all checks holds one container. -/
theorem Passes.unique {x y : Container} (hx : l.Passes dir id x) (hy : l.Passes dir id y) : x = y := by
  obtain ⟨d, settings, ht, -, rfl⟩ := hx
  obtain ⟨d', settings', ht', -, rfl⟩ := hy
  obtain rfl := Except.ok.inj (ht.parsed.load.symm.trans ht'.parsed.load)
  obtain rfl := Except.ok.inj (ht.projected.symm.trans ht'.projected)
  rfl

/-- A scan that serves every number gathers what lies in its directories. -/
theorem gathers_of_serves {ds : List (FilePath × ContainerId)} {c c' : Catalog} {report : ScanReport}
    (h : ∀ id, Scan.Serves l ds id c report c') : l.Gathers ds c c' := by
  intro id x
  cases h id with
  | taken hold hkept => simp [hold, hkept]
  | vacant hvacant hnone hkept =>
      simp only [hvacant, hkept, reduceCtorEq, false_or, true_and, false_iff]
      rintro ⟨before, dir, behind, rfl, hx, -⟩
      exact hnone dir x (List.mem_append_right _ List.mem_cons_self) hx
  | @first before behind dir y hvacant hsplit hbefore hy hgiven =>
      simp only [hvacant, hgiven, reduceCtorEq, false_or, true_and, Option.some.injEq]
      constructor
      · rintro rfl
        exact ⟨before, dir, behind, hsplit, hy, hbefore⟩
      · rintro ⟨before', dir', behind', hsplit', hx, hbefore'⟩
        obtain ⟨-, heq⟩ := first_unique (p := fun p => p.2 = id ∧ ∃ z, l.Passes p.1 id z)
          (hsplit.symm.trans hsplit') (fun p hp ⟨hid, z, hz⟩ => hbefore p hp hid z hz) ⟨rfl, y, hy⟩
          (fun p hp ⟨hid, z, hz⟩ => hbefore' p hp hid z hz) ⟨rfl, x, hx⟩
        obtain rfl : dir = dir' := congrArg Prod.fst heq
        exact hy.unique hx

/-- What is gathered from directories on a volume is on the volume. -/
theorem Gathers.get?_iff {ds : List (FilePath × ContainerId)} {c c' : Catalog}
    (h : l.Gathers ds c c') (id : ContainerId) {x : Container} (hx : x.volume ≠ l.volume) :
    c'.get? id = some x ↔ c.get? id = some x := by
  rw [h id x]
  refine or_iff_left ?_
  rintro ⟨-, before, dir, behind, -, hpasses, -⟩
  exact hx hpasses.volume_eq

end Loading

namespace Scan

/-! ## Walks that crash -/

/-- **What comes of a walk**: it is one by the rules, or it is one by the rules up to the first directory
on which it crashes. -/
inductive Course (l : Loading) (c : Catalog) (ss : List Stop) (found : List Finding) (c' : Catalog) :
    Prop
  | whole (hnone : ∀ p ∈ offers ss, ¬ l.Crashes p.1 p.2) (hwalks : Walks l c ss found c')
  | broken (done : List Stop) (fs : List Finding) {p : FilePath × ContainerId}
      {ahead : List (FilePath × ContainerId)} (hoffers : offers ss = offers done ++ p :: ahead)
      (hbefore : ∀ q ∈ offers done, ¬ l.Crashes q.1 q.2) (hp : l.Crashes p.1 p.2)
      (hfound : found = fs ++ [.crashed]) (hwalks : Walks l c done fs c')

section

variable {l : Loading} {c c₁ c' : Catalog} {ss : List Stop} {fs : List Finding} {dir : FilePath}
  {id : ContainerId} {a : Attempt}

theorem Course.unreadable {cause : DiskError} (h : Course l c ss fs c') :
    Course l c (.unreadableGroup dir cause :: ss) (.unreadableGroup dir cause :: fs) c' := by
  cases h with
  | whole hnone hwalks => exact .whole hnone (.unreadable hwalks)
  | broken done _ hoffers hbefore hp hfound hwalks =>
      exact .broken (.unreadableGroup dir cause :: done) _ hoffers hbefore hp
        (congrArg (_ :: ·) hfound) (.unreadable hwalks)

/-- A directory on which there is no crash is passed. -/
theorem Course.candidate (hid : containerId? dir = some id) (hcrash : ¬ l.Crashes dir id)
    (ha : l.Decided dir id c a c₁) (h : Course l c₁ ss fs c') :
    Course l c (.candidate dir :: ss) (finding id dir a :: fs) c' := by
  cases h with
  | whole hnone hwalks =>
      refine .whole ?_ (.candidate hid ha hwalks)
      rw [offers_candidate hid]
      exact List.forall_mem_cons.mpr ⟨hcrash, hnone⟩
  | @broken done _ p ahead hoffers hbefore hp hfound hwalks =>
      have hoffers' : offers (.candidate dir :: ss) =
          offers (.candidate dir :: done) ++ p :: ahead := by
        rw [offers_candidate hid, offers_candidate hid, hoffers, List.cons_append]
      refine .broken _ _ hoffers' ?_ hp (congrArg (_ :: ·) hfound) (.candidate hid ha hwalks)
      rw [offers_candidate hid]
      exact List.forall_mem_cons.mpr ⟨hcrash, hbefore⟩

/-- A directory on which there is a crash is the last one. -/
theorem Course.crash (hid : containerId? dir = some id) (hcrash : l.Crashes dir id) :
    Course l c (.candidate dir :: ss) [.crashed] c :=
  .broken [] [] (offers_candidate hid ss) (fun _ hq => absurd hq List.not_mem_nil)
    hcrash rfl (.done c)

end

theorem course_visitAll (l : Loading) : ∀ (ss : List Stop) (c : Catalog), (∀ stop ∈ ss, stop.Named) →
    Course l c ss (visitAll l c ss).1 (visitAll l c ss).2.1
  | [], c, _ => .whole (fun p hp => absurd hp List.not_mem_nil) (.done c)
  | .unreadableGroup dir cause :: ss, c, hnamed => by
      rw [visitAll_of_not_last ss rfl]
      exact (course_visitAll l ss c (List.forall_mem_cons.mp hnamed).2).unreadable
  | .candidate dir :: ss, c, hnamed => by
      obtain ⟨⟨parent, name, hname, rfl⟩, hlater⟩ := List.forall_mem_cons.mp hnamed
      cases hid : containerId? (parent / name) with
      | none =>
          have hvisit := visit_malformed (l := l) hid c
          rw [visitAll_of_last ss (by rw [hvisit]; rfl), hvisit]
          refine .whole (fun p hp => ?_) (.malformed c ss hid)
          rw [offers_malformed hid] at hp
          exact absurd hp List.not_mem_nil
      | some id =>
          obtain ⟨hfinding, hcatalog⟩ := visit_candidate (l := l) hid c
          by_cases hcrash : l.Crashes (parent / name) id
          · rw [Loading.attempt_of_crashes hname hcrash] at hfinding hcatalog
            rw [visitAll_of_last ss (by rw [hfinding]; rfl), hfinding, hcatalog]
            exact .crash hid hcrash
          · have hdecided := Loading.decided_of_not_crashes hname hcrash c
            rw [visitAll_of_not_last ss (by rw [hfinding]; exact (finding_of_decided hdecided).1),
              hfinding, hcatalog]
            exact .candidate hid hcrash hdecided (course_visitAll l ss _ hlater)

/-! ## Scans that crash -/

section

variable {s : Scan} {ids : ContainerId → Prop}

/-- **What a scan comes to**: it reports and has gathered what lies in all of its directories, or it crashes
on one of them and has gathered what lies in those in front. -/
theorem run_gathers (hview : s.view.WellNamed) (c : Catalog) (r : Registry) :
    ((∀ p ∈ s.processed, ¬ s.Crashes p.1 p.2) ∧ (∃ report, (s.run c r).report = some report) ∧
      s.Gathers s.processed c (s.run c r).catalog) ∨
    ∃ before p behind, s.processed = before ++ p :: behind ∧ (∀ q ∈ before, ¬ s.Crashes q.1 q.2) ∧
      s.Crashes p.1 p.2 ∧ (s.run c r).report = none ∧ (s.run c r).registry = r ∧
      s.Gathers before c (s.run c r).catalog := by
  have hnothing : ∀ report : ScanReport, report.loaded = [] → s.Gathers [] c c := fun report h =>
    Loading.gathers_of_serves fun id => serves_nothing s.toLoading id c h
  cases hcluster : s.cluster with
  | error fault =>
      rw [processed_of_fault hcluster, run_of_fault hcluster]
      exact .inl ⟨fun p hp => absurd hp List.not_mem_nil, ⟨_, rfl⟩, hnothing (s.report []) rfl⟩
  | ok cluster =>
  cases hstops : stops s.view (cluster / Layout.currentName) with
  | error e =>
      rw [processed_of_unreadable hcluster hstops, run_of_unreadable hcluster hstops]
      exact .inl ⟨fun p hp => absurd hp List.not_mem_nil, ⟨_, rfl⟩, hnothing (s.report []) rfl⟩
  | ok ss =>
  rw [processed_of_stops hcluster hstops]
  cases course_visitAll s.toLoading ss c fun _ => named_of_mem_stops hview hstops with
  | whole hnone hwalks =>
      rw [run_of_stops hcluster hstops hwalks.not_crashed]
      exact .inl ⟨hnone, ⟨_, rfl⟩, Loading.gathers_of_serves hwalks.serves⟩
  | @broken done fs p ahead hoffers hbefore hp hfound hwalks =>
      have hrun : s.run c r = ⟨none, (visitAll s.toLoading c ss).2.1, r,
          (visitAll s.toLoading c ss).2.2⟩ := by
        simp [run, hcluster, hstops, walk, hfound]
      rw [hrun]
      exact .inr ⟨offers done, p, ahead, hoffers, hbefore, hp, rfl, rfl,
        Loading.gathers_of_serves hwalks.serves⟩

/-- **A scan crashes if one of its directories is hit.** -/
theorem run_of_hit (hview : s.view.WellNamed) (hcheck : s.check.CrashesOn ids) (c : Catalog)
    (r : Registry) {before behind : List (FilePath × ContainerId)} {p : FilePath × ContainerId}
    (hsplit : s.processed = before ++ p :: behind) (hbefore : ∀ q ∈ before, ¬ s.Hits ids q)
    (hp : s.Hits ids p) : (s.run c r).report = none ∧ (s.run c r).registry = r ∧
      s.Gathers before c (s.run c r).catalog := by
  rcases run_gathers hview c r with ⟨hnone, -⟩ | ⟨before', q, behind', hsplit', hbefore', hq, hends⟩
  · have hmem : p ∈ s.processed := hsplit ▸ List.mem_append_right _ List.mem_cons_self
    exact absurd ((Loading.hits_iff hcheck).mp hp) (hnone p hmem)
  · obtain ⟨rfl, -⟩ := first_unique (p := s.Hits ids) (hsplit.symm.trans hsplit') hbefore hp
      (fun x hx hhit => hbefore' x hx ((Loading.hits_iff hcheck).mp hhit))
      ((Loading.hits_iff hcheck).mpr hq)
    exact hends

/-- **A scan reports if none of its directories is hit.** -/
theorem run_of_no_hit (hview : s.view.WellNamed) (hcheck : s.check.CrashesOn ids) (c : Catalog)
    (r : Registry) (h : ∀ p ∈ s.processed, ¬ s.Hits ids p) :
    (∃ report, (s.run c r).report = some report) ∧
      s.Gathers s.processed c (s.run c r).catalog := by
  rcases run_gathers hview c r with ⟨-, hends⟩ | ⟨before, q, behind, hsplit, -, hq, -⟩
  · exact hends
  · have hmem : q ∈ s.processed := hsplit ▸ List.mem_append_right _ List.mem_cons_self
    exact absurd ((Loading.hits_iff hcheck).mpr hq) (h q hmem)

/-- A scan crashes just if one of its directories is hit. -/
theorem report_eq_none_iff (hview : s.view.WellNamed) (hcheck : s.check.CrashesOn ids) (c : Catalog)
    (r : Registry) : (s.run c r).report = none ↔ ∃ p ∈ s.processed, s.Hits ids p := by
  rcases exists_first (s.Hits ids) s.processed with hnone | ⟨before, p, behind, hsplit, hp, hbefore⟩
  · obtain ⟨⟨report, hreport⟩, -⟩ := run_of_no_hit hview hcheck c r hnone
    rw [hreport]
    exact iff_of_false (by simp) fun ⟨p, hp, hhit⟩ => hnone p hp hhit
  · have hmem : p ∈ s.processed := hsplit ▸ List.mem_append_right _ List.mem_cons_self
    exact iff_of_true (run_of_hit hview hcheck c r hsplit hbefore hp).1 ⟨p, hmem, hp⟩

end

end Scan

end StorageNode
