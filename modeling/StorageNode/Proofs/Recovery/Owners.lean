import Mathlib.Data.List.Sort
import StorageNode.Recovery
import StorageNode.Proofs.Catalog
import StorageNode.Proofs.Descriptor
import StorageNode.Proofs.Scan.Firsts

/-!
# The first scan that finds a container owns it

Volumes that are scanned one after another share the catalog, so what a scan does to a number depends on
the scans before it. `Node.Settled` tells what becomes of a number in the end, by the directories of it
that pass all checks (`Node.Sound`): the first volume that has one owns the container, and every other
directory is refused as a duplicate. `Node.workAll_settles` says that every number is settled so, whatever
the order of the volumes, and that the order does not matter for which numbers the catalog has in the end.

The induction is over the volumes. What the first scan does to a number (`Scan.Serves`) tells from which
catalog the others go on.
-/

namespace StorageNode

namespace Node

section

variable (view : DiskView) (check : StructureCheck)

/-- How containers of a volume are loaded. -/
abbrev loading (v : Volume) : Loading := ⟨view, check, v.id⟩

/-- A directory of a volume is processed by the scan, and passes all checks but that of the number. -/
structure Sound (v : Volume) (dir : FilePath) (id : ContainerId) (x : Container) : Prop where
  processed : Scan.Processes view v.root dir id
  passes : (loading view check v).Passes dir id x

/-- The report lists nothing under the number as loaded, and every directory of it that is sound as a
duplicate of a container. -/
structure Refuses (id : ContainerId) (old : Container) (v : Volume) (r : ScanReport) : Prop where
  volume : r.volume = v.id
  loaded : id ∉ r.loaded
  skipped : ∀ dir x, Sound view check v dir id x →
    ⟨id, dir, .duplicate ⟨id, old.volume, v.id⟩⟩ ∈ r.skipped

/-- **The container under the number is that of a volume**: it lies in the first of the sound directories
in the order of the walk, and the report lists it as loaded, once, and the other directories as its
duplicates. -/
structure Owns (id : ContainerId) (x : Container) (dir : FilePath) (v : Volume) (r : ScanReport) :
    Prop where
  volume : r.volume = v.id
  sound : Sound view check v dir id x
  first : ∃ before after, Scan.Processed view v.root (before ++ (dir, id) :: after) ∧
    ∀ p ∈ before, p.2 = id → ∀ y, ¬ Sound view check v p.1 id y
  owner : x.volume = v.id
  paths : x.paths = .ofDirectory dir id
  once : r.loaded.count id = 1
  others : ∀ dir' y, dir' ≠ dir → Sound view check v dir' id y →
    ⟨id, dir', .duplicate ⟨id, v.id, v.id⟩⟩ ∈ r.skipped

/-- **What becomes of a number** when volumes are scanned one after another, from the catalog before it to
the reports, in the order of the volumes, and the catalog in the end. -/
inductive Settled (id : ContainerId) (c : Catalog) (vs : List Volume) (reports : List ScanReport)
    (c' : Catalog) : Prop
  /-- The catalog had the number. -/
  | taken {old : Container} (hold : c.get? id = some old) (hkept : c'.get? id = some old)
      (hreports : List.Forall₂ (Refuses view check id old) vs reports)
  /-- No volume has a sound directory of the number. -/
  | vacant (hvacant : c.get? id = none)
      (hnone : ∀ v ∈ vs, ∀ dir x, ¬ Sound view check v dir id x) (hkept : c'.get? id = none)
      (hreports : ∀ r ∈ reports, id ∉ r.loaded)
  /-- The first volume that has a sound directory owns the container. -/
  | owned {before behind : List Volume} {v : Volume} {earlier later : List ScanReport}
      {r : ScanReport} {x : Container} {dir : FilePath} (hvacant : c.get? id = none)
      (hvs : vs = before ++ v :: behind) (hrs : reports = earlier ++ r :: later)
      (hnone : ∀ u ∈ before, ∀ dir y, ¬ Sound view check u dir id y)
      (hgiven : c'.get? id = some x) (howns : Owns view check id x dir v r)
      (hearlier : List.Forall₂ (Refuses view check id x) before earlier)
      (hlater : List.Forall₂ (Refuses view check id x) behind later)

end

variable {view : DiskView} {check : StructureCheck} {id : ContainerId} {v : Volume}
  {vs : List Volume} {c c₁ c' : Catalog} {r : ScanReport} {reports : List ScanReport}

/-- The directories that the scan of a volume processes. -/
def processed (view : DiskView) (check : StructureCheck) (v : Volume) :
    List (FilePath × ContainerId) := Scan.processed ⟨loading view check v, v.root⟩

theorem sound_iff {dir : FilePath} {x : Container} : Sound view check v dir id x ↔
    (dir, id) ∈ processed view check v ∧ (loading view check v).Passes dir id x := by
  have hprocesses : Scan.Processes view v.root dir id ↔ (dir, id) ∈ processed view check v :=
    Scan.processes_iff (s := ⟨loading view check v, v.root⟩)
  exact ⟨fun h => ⟨hprocesses.mp h.processed, h.passes⟩, fun h => ⟨hprocesses.mpr h.1, h.2⟩⟩

/-- A report that lists the duplicates of a container refuses the number. -/
theorem refuses_of_skipped {old : Container} (hvolume : r.volume = v.id) (hloaded : id ∉ r.loaded)
    (hskipped : ∀ dir x, (dir, id) ∈ processed view check v →
      (loading view check v).Passes dir id x →
      Scan.duplicateOf old (loading view check v) id dir ∈ r.skipped) :
    Refuses view check id old v r where
  volume := hvolume
  loaded := hloaded
  skipped := fun dir x h => hskipped dir x (sound_iff.mp h).1 h.passes

/-- The volume whose scan loads a container owns it. -/
theorem owns_of_loaded {before after : List (FilePath × ContainerId)} {dir : FilePath} {x : Container}
    (hvolume : r.volume = v.id) (hsplit : processed view check v = before ++ (dir, id) :: after)
    (hbefore : ∀ p ∈ before, p.2 = id → ∀ y, ¬ (loading view check v).Passes p.1 id y)
    (hx : (loading view check v).Passes dir id x) (honce : r.loaded.count id = 1)
    (hskipped : ∀ dir' y, (dir', id) ∈ after → (loading view check v).Passes dir' id y →
      Scan.duplicateOf x (loading view check v) id dir' ∈ r.skipped) :
    Owns view check id x dir v r where
  volume := hvolume
  sound := sound_iff.mpr ⟨by simp [hsplit], hx⟩
  first := ⟨before, after, (Scan.processed_iff (s := ⟨loading view check v, v.root⟩)).mpr hsplit,
    fun p hp heq y hy => hbefore p hp heq y hy.passes⟩
  owner := hx.volume_eq
  paths := hx.paths_eq
  once := honce
  others := by
    intro dir' y hne hy
    have hmem := (sound_iff.mp hy).1
    rw [hsplit, List.mem_append, List.mem_cons] at hmem
    rcases hmem with hmem | heq | hmem
    · exact absurd hy.passes (hbefore _ hmem rfl y)
    · exact absurd (Prod.mk.inj heq).1 hne
    · have hlisted := hskipped dir' y hmem hy.passes
      rwa [Scan.duplicateOf, hx.volume_eq] at hlisted

/-- A scan that serves the number first is settled by the rest of the scans. -/
theorem Settled.cons (hvolume : r.volume = v.id)
    (h : Scan.Serves (loading view check v) (processed view check v) id c r c₁)
    (hrest : Settled view check id c₁ vs reports c') :
    Settled view check id c (v :: vs) (r :: reports) c' := by
  cases h with
  | @taken old hold hkept hloaded hskipped =>
      have hrefuses := refuses_of_skipped hvolume hloaded hskipped
      cases hrest with
      | @taken old' hold' hkept' hreports =>
          obtain rfl : old = old' := Option.some.inj (hkept.symm.trans hold')
          exact .taken hold hkept' (.cons hrefuses hreports)
      | vacant hvacant | owned hvacant => simp [hkept] at hvacant
  | vacant hvacant hnone hkept hloaded =>
      have hnone' : ∀ dir x, ¬ Sound view check v dir id x := fun dir x hx =>
        hnone dir x (sound_iff.mp hx).1 hx.passes
      cases hrest with
      | taken hold => simp [hkept] at hold
      | vacant _ hrest hkept' hreports =>
          exact .vacant hvacant (List.forall_mem_cons.mpr ⟨hnone', hrest⟩) hkept'
            (List.forall_mem_cons.mpr ⟨hloaded, hreports⟩)
      | @owned before behind _ earlier later _ x _ _ hvs hrs hrest hgiven howns hearlier hlater =>
          have hrefuses : Refuses view check id x v r :=
            ⟨hvolume, hloaded, fun dir y hy => absurd hy (hnone' dir y)⟩
          exact .owned hvacant (congrArg (v :: ·) hvs) (congrArg (r :: ·) hrs)
            (List.forall_mem_cons.mpr ⟨hnone', hrest⟩) hgiven howns (.cons hrefuses hearlier) hlater
  | @first before after dir x hvacant hsplit hbefore hx hgiven hloaded hskipped =>
      cases hrest with
      | @taken old hold hkept hreports =>
          obtain rfl : x = old := Option.some.inj (hgiven.symm.trans hold)
          have howns := owns_of_loaded hvolume hsplit hbefore hx hloaded hskipped
          exact .owned hvacant rfl rfl (fun _ hu => absurd hu List.not_mem_nil) hkept howns .nil
            hreports
      | vacant hvacant' | owned hvacant' => simp [hgiven] at hvacant'

/-- Where there is nothing to scan, every number is as it was. -/
theorem Settled.nil (id : ContainerId) (c : Catalog) : Settled view check id c [] [] c := by
  cases hold : c.get? id with
  | some old => exact .taken hold hold .nil
  | none =>
      exact .vacant hold (fun v hv => absurd hv List.not_mem_nil) hold
        fun r hr => absurd hr List.not_mem_nil

/-- **Every number is settled**, from any node on. -/
theorem exists_settled (hview : view.WellNamed) (hcheck : check.NeverCrashes) (vs : List Volume) :
    ∀ n : Node, ∃ reports : List ScanReport,
      (n.workAll view check vs).1 = reports.map .report ∧
      ∀ id, Settled view check id n.catalog vs reports (n.workAll view check vs).2.1.catalog := by
  induction vs with
  | nil => exact fun n => ⟨[], rfl, fun id => .nil id n.catalog⟩
  | cons v vs ih =>
      intro n
      obtain ⟨r, hreport, hvolume, hserves⟩ := Scan.exists_serves ⟨loading view check v, v.root⟩
        n.catalog n.registry hview hcheck
      obtain ⟨reports, hreports, hsettled⟩ := ih (n.work view check v).2.1
      have hwork : (n.work view check v).1 = .report r := by
        simp only [work, scan, hreport]
      refine ⟨r :: reports, ?_, fun id => .cons hvolume (hserves id) (hsettled id)⟩
      rw [List.map_cons, ← hwork, ← hreports]
      rfl

/-- The numbers in the end are those before and those of sound directories. -/
theorem Settled.mem_ids_iff (h : Settled view check id c vs reports c') :
    id ∈ c'.ids ↔ id ∈ c.ids ∨ ∃ v ∈ vs, ∃ dir x, Sound view check v dir id x := by
  rw [Catalog.mem_ids_iff, Catalog.mem_ids_iff]
  cases h with
  | taken hold hkept => simp [hold, hkept]
  | vacant hvacant hnone hkept =>
      simp only [hvacant, hkept, reduceCtorEq, exists_false, false_or, false_iff, not_exists, not_and]
      exact fun v hv dir x => hnone v hv dir x
  | @owned before behind v _ _ _ x dir hvacant hvs _ _ hgiven howns =>
      refine iff_of_true ⟨x, hgiven⟩ (.inr ⟨v, ?_, dir, x, howns.sound⟩)
      rw [hvs]
      exact List.mem_append_right before List.mem_cons_self

/-- Catalogs with the same numbers list them alike. -/
theorem ids_eq {c d : Catalog} (h : ∀ id, id ∈ c.ids ↔ id ∈ d.ids) : c.ids = d.ids :=
  c.ascending_ids.eq_of_mem_iff d.ascending_ids h

/-- **The first scan that finds a container owns it, and the order of the scans decides nothing else.**
From any node on, the scans of volumes report in their order and settle every number. The numbers in the
end are those that the catalog had and those of sound directories, and they are the same in any order of
the volumes. -/
theorem workAll_settles (n : Node) (hview : view.WellNamed) (hcheck : check.NeverCrashes)
    (vs : List Volume) :
    (∃ reports : List ScanReport, (n.workAll view check vs).1 = reports.map .report ∧
      ∀ id, Settled view check id n.catalog vs reports (n.workAll view check vs).2.1.catalog) ∧
    (∀ id, id ∈ (n.workAll view check vs).2.1.catalog.ids ↔
      id ∈ n.catalog.ids ∨ ∃ v ∈ vs, ∃ dir x, Sound view check v dir id x) ∧
    ∀ ws : List Volume, ws.Perm vs →
      (n.workAll view check ws).2.1.catalog.ids = (n.workAll view check vs).2.1.catalog.ids := by
  have hids : ∀ (vs : List Volume) id, id ∈ (n.workAll view check vs).2.1.catalog.ids ↔
      id ∈ n.catalog.ids ∨ ∃ v ∈ vs, ∃ dir x, Sound view check v dir id x := by
    intro vs id
    obtain ⟨reports, -, hsettled⟩ := exists_settled hview hcheck vs n
    exact (hsettled id).mem_ids_iff
  refine ⟨exists_settled hview hcheck vs n, hids vs, fun ws hperm => ids_eq fun id => ?_⟩
  rw [hids ws, hids vs]
  simp only [hperm.mem_iff]

/-! ## A sample -/

/-- The first volume owns a container of which it has a sound directory, if the number was vacant. -/
theorem Settled.exists_of_head {dir : FilePath} {x : Container}
    (h : Settled view check id c (v :: vs) reports c') (hvacant : c.get? id = none)
    (hx : Sound view check v dir id x) : ∃ y, c'.get? id = some y ∧ y.volume = v.id := by
  cases h with
  | taken hold => simp [hvacant] at hold
  | vacant _ hnone => exact absurd hx (hnone v List.mem_cons_self dir x)
  | @owned before _ _ _ _ _ y _ _ hvs _ hnone hgiven howns =>
      cases before with
      | nil =>
          obtain ⟨rfl, -⟩ := List.cons.inj hvs
          exact ⟨y, hgiven, howns.owner⟩
      | cons u before =>
          obtain ⟨rfl, -⟩ := List.cons.inj hvs
          exact absurd hx (hnone v List.mem_cons_self dir x)

/-- A tree with volumes at `/u`, `/v` and `/w`: the first two have a container 5 each, the third one an
empty directory of a container 6. -/
def trio : Disk where
  entries := [
    ([], .directory .ofDirectory),
    (["5", "g", "current", "c", "u"], .directory .ofDirectory),
    (["5", "g", "current", "c", "v"], .directory .ofDirectory),
    (["5-dn-container.db", "metadata", "5", "g", "current", "c", "u"], .file .ofFile []),
    (["5-dn-container.db", "metadata", "5", "g", "current", "c", "v"], .file .ofFile []),
    (["5.container", "metadata", "5", "g", "current", "c", "u"],
      .file .ofFile (Descriptor.sampleBytes 5)),
    (["5.container", "metadata", "5", "g", "current", "c", "v"],
      .file .ofFile (Descriptor.sampleBytes 5)),
    (["6", "g", "current", "c", "w"], .directory .ofDirectory),
    (["c", "u"], .directory .ofDirectory),
    (["c", "v"], .directory .ofDirectory),
    (["c", "w"], .directory .ofDirectory),
    (["current", "c", "u"], .directory .ofDirectory),
    (["current", "c", "v"], .directory .ofDirectory),
    (["current", "c", "w"], .directory .ofDirectory),
    (["g", "current", "c", "u"], .directory .ofDirectory),
    (["g", "current", "c", "v"], .directory .ofDirectory),
    (["g", "current", "c", "w"], .directory .ofDirectory),
    (["metadata", "5", "g", "current", "c", "u"], .directory .ofDirectory),
    (["metadata", "5", "g", "current", "c", "v"], .directory .ofDirectory),
    (["u"], .directory .ofDirectory),
    (["v"], .directory .ofDirectory),
    (["w"], .directory .ofDirectory)]
  ascending := by decide

theorem isTree_trio : trio.IsTree := Disk.IsTree.of_keys (by decide)

/-- The root of one of the volumes, and the directory of a container there. -/
def trioRoot (name : String) : FilePath := ⟨"/" ++ name⟩

def trioHome (name number : String) : FilePath :=
  trioRoot name / "c" / Layout.currentName / "g" / number

def trioVolume (id : VolumeId) (name : String) : Volume := ⟨id, trioRoot name, .healthy⟩

/-- A scan of one of the volumes processes the one directory. -/
theorem processed_trio {name number : String} {id : ContainerId}
    (h : (name, number, id) ∈ [("u", "5", 5), ("v", "5", 5), ("w", "6", 6)]) :
    Scan.Processed trio.view (trioRoot name) [(trioHome name number, id)] := by
  simp only [List.mem_cons, Prod.mk.injEq, List.not_mem_nil, or_false] at h
  have hroot : trio.view.subdirectories (trioRoot name) = .ok [trioRoot name / "c"] := by
    rcases h with ⟨rfl, rfl, rfl⟩ | ⟨rfl, rfl, rfl⟩ | ⟨rfl, rfl, rfl⟩ <;>
      exact DiskView.subdirectories_of_ordered ["c"] (by decide +kernel) (by decide)
  have hcurrent : trio.view.subdirectories (trioRoot name / "c" / Layout.currentName) =
      .ok [trioRoot name / "c" / Layout.currentName / "g"] := by
    rcases h with ⟨rfl, rfl, rfl⟩ | ⟨rfl, rfl, rfl⟩ | ⟨rfl, rfl, rfl⟩ <;>
      exact DiskView.subdirectories_of_ordered ["g"] (by decide +kernel) (by decide)
  have hgroup : trio.view.subdirectories (trioRoot name / "c" / Layout.currentName / "g") =
      .ok [trioHome name number] := by
    rcases h with ⟨rfl, rfl, rfl⟩ | ⟨rfl, rfl, rfl⟩ | ⟨rfl, rfl, rfl⟩
    · exact DiskView.subdirectories_of_ordered ["5"] (by decide +kernel) (by decide)
    · exact DiskView.subdirectories_of_ordered ["5"] (by decide +kernel) (by decide)
    · exact DiskView.subdirectories_of_ordered ["6"] (by decide +kernel) (by decide)
  have hid : Scan.containerId? (trioHome name number) = some id := by
    rcases h with ⟨rfl, rfl, rfl⟩ | ⟨rfl, rfl, rfl⟩ | ⟨rfl, rfl, rfl⟩ <;> decide +kernel
  have hprocessed : Scan.processed ⟨loading trio.view .indexFile (trioVolume 0 name), trioRoot name⟩ =
      Scan.numbered [trioHome name number] := Scan.processed_of_group hroot hcurrent hgroup
  exact Scan.processed_iff.mpr (hprocessed.trans (Scan.numbered_cons_of_some hid []))

/-- The first two volumes have a sound directory of container 5. -/
theorem exists_sound_trio (id : VolumeId) {name : String} (hname : name = "u" ∨ name = "v") :
    ∃ x, Sound trio.view .indexFile (trioVolume id name) (trioHome name "5") 5 x := by
  have hprocessed : Scan.Processed trio.view (trioRoot name) [(trioHome name "5", 5)] := by
    rcases hname with rfl | rfl <;> exact processed_trio (by simp)
  have hmetadata : trio.view.isDirectory (trioHome name "5" / "metadata") = true := by
    rcases hname with rfl | rfl <;> decide +kernel
  have hdescriptor : trio.view.isFile
      (trioHome name "5" / "metadata" / Layout.descriptorName 5) = true := by
    rcases hname with rfl | rfl <;> decide +kernel
  have hread : trio.view.read (trioHome name "5" / "metadata" / Layout.descriptorName 5) =
      .ok (Descriptor.sampleBytes 5) := by rcases hname with rfl | rfl <;> rfl
  have hindex : trio.view.isFile (ContainerPaths.ofDirectory (trioHome name "5") 5).index = true := by
    rcases hname with rfl | rfl <;> decide +kernel
  have hpasses := Loading.passes_sample (l := loading trio.view .indexFile (trioVolume id name)) (.inl rfl)
    rfl hmetadata hdescriptor hread hindex
  exact ⟨_, ⟨_, hprocessed, List.mem_cons_self⟩, hpasses⟩

/-- The first of two volumes owns container 5, whichever is the first. -/
theorem workAll_settles_trio : trio.view.WellNamed ∧ StructureCheck.indexFile.NeverCrashes ∧
    (∃ x, (({} : Node).workAll trio.view .indexFile
      [trioVolume 0 "u", trioVolume 1 "v"]).2.1.catalog.get? 5 = some x ∧ x.volume = 0) ∧
    (∃ x, (({} : Node).workAll trio.view .indexFile
      [trioVolume 1 "v", trioVolume 0 "u"]).2.1.catalog.get? 5 = some x ∧ x.volume = 1) ∧
    (({} : Node).workAll trio.view .indexFile
        [trioVolume 1 "v", trioVolume 0 "u"]).2.1.catalog.ids =
      (({} : Node).workAll trio.view .indexFile
        [trioVolume 0 "u", trioVolume 1 "v"]).2.1.catalog.ids := by
  have hview := isTree_trio.wellNamed
  have hcheck := StructureCheck.neverCrashes_indexFile
  obtain ⟨⟨_, -, hu⟩, -, hids⟩ :=
    workAll_settles {} hview hcheck [trioVolume 0 "u", trioVolume 1 "v"]
  obtain ⟨⟨_, -, hv⟩, -, -⟩ := workAll_settles {} hview hcheck [trioVolume 1 "v", trioVolume 0 "u"]
  obtain ⟨_, hx⟩ := exists_sound_trio 0 (.inl rfl)
  obtain ⟨_, hy⟩ := exists_sound_trio 1 (.inr rfl)
  exact ⟨hview, hcheck, (hu 5).exists_of_head rfl hx, (hv 5).exists_of_head rfl hy,
    hids _ (.swap _ _ _)⟩

end Node

end StorageNode
