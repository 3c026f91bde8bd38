import Mathlib.Data.List.Sort
import StorageNode.Proofs.Disk.Descent
import StorageNode.Proofs.Scan

/-!
# The directories of a walk as pairs of names

Where all groups can be listed, what a walk comes to is known by pairs of names, of a group and of a
directory in it (`DiskView.grouped`, `Scan.stops_of_listable`). The pairs are strictly ascending
(`grouped_ascending`), so that they are determined by which pairs there are, and on a disk without
links those are the pairs that lead to directories (`mem_grouped_iff`). Two disks on which the same
pairs lead to directories have the same walk, however they came about.
-/

namespace StorageNode

open FilePath (IsName)

/-- Pairs of names in the order of a walk. -/
def Precedes (a b : String × String) : Prop := a.1 < b.1 ∨ (a.1 = b.1 ∧ a.2 < b.2)

instance : Std.Irrefl Precedes where
  irrefl a h := by
    rcases h with h | ⟨-, h⟩
    · exact String.lt_irrefl _ h
    · exact String.lt_irrefl _ h

instance : Std.Antisymm Precedes where
  antisymm a b hab hba := by
    rcases hab with hab | ⟨heq, hab⟩
    · rcases hba with hba | ⟨heq, -⟩
      · exact absurd hba (String.lt_asymm hab)
      · exact absurd (heq ▸ hab) (String.lt_irrefl _)
    · rcases hba with hba | ⟨-, hba⟩
      · exact absurd (heq ▸ hba) (String.lt_irrefl _)
      · exact absurd hba (String.lt_asymm hab)

/-! ## Names of sub-directories -/

namespace DiskView

/-- The names of the sub-directories, in byte order; none where nothing can be listed. -/
def directoryNames (v : DiskView) (dir : FilePath) : List String :=
  match v.list dir with
  | .error _ => []
  | .ok names => (names.mergeSort (· ≤ ·)).filter fun n => v.isDirectory (dir / n)

/-- The pairs of names that lead from a directory to the ones two levels below. -/
def grouped (v : DiskView) (current : FilePath) : List (String × String) :=
  (v.directoryNames current).flatMap fun g => (v.directoryNames (current / g)).map fun n => (g, n)

section

variable {v : DiskView} {dir : FilePath} {names : List String}

theorem directoryNames_of_list (h : v.list dir = .ok names) : v.directoryNames dir =
    (names.mergeSort (· ≤ ·)).filter fun n => v.isDirectory (dir / n) := by
  rw [directoryNames, h]

theorem directoryNames_of_error {e : DiskError} (h : v.list dir = .error e) :
    v.directoryNames dir = [] := by
  rw [directoryNames, h]

/-- Where the entries can be listed, the sub-directories are those with these names. -/
theorem subdirectories_eq_directoryNames (h : v.list dir = .ok names) :
    v.subdirectories dir = .ok ((v.directoryNames dir).map (dir / ·)) := by
  rw [subdirectories_of_list h, directoryNames_of_list h]

/-- The names are strictly ascending. -/
theorem directoryNames_ascending (hv : v.WellNamed) (dir : FilePath) :
    (v.directoryNames dir).Pairwise (· < ·) := by
  cases hlist : v.list dir with
  | error e =>
      rw [directoryNames_of_error hlist]
      exact .nil
  | ok names =>
      have hordered := (subdirectoryNames_mergeSort hlist).ordered
      have hnodup : ((names.mergeSort (· ≤ ·)).filter fun n => v.isDirectory (dir / n)).Nodup :=
        ((List.mergeSort_perm names _).nodup_iff.mpr (hv.nodup hlist)).filter _
      rw [directoryNames_of_list hlist]
      refine hordered.imp₂ (fun m n hle hne => ?_) hnodup
      by_contra hlt
      exact hne (String.le_antisymm (not_encode_lt_iff.mp hle) (String.not_lt.mp hlt))

/-- **The pairs are strictly ascending.** -/
theorem grouped_ascending (hv : v.WellNamed) (current : FilePath) :
    (v.grouped current).Pairwise Precedes := by
  refine List.pairwise_flatMap.mpr ⟨fun g _ => ?_, ?_⟩
  · refine List.pairwise_map.mpr ((directoryNames_ascending hv _).imp fun hlt => ?_)
    exact .inr ⟨rfl, hlt⟩
  · refine (directoryNames_ascending hv current).imp fun hlt x hx y hy => ?_
    obtain ⟨n, -, rfl⟩ := List.mem_map.mp hx
    obtain ⟨m, -, rfl⟩ := List.mem_map.mp hy
    exact .inl hlt

end

end DiskView

/-! ## On a disk without links -/

namespace Disk

/-- The entries of the directory that a path leads to can be listed. -/
def Listable (d : Disk) (p : FilePath) : Prop := ∃ names, d.list p = .ok names

/-- What is there of a directory and of the ones below it can be listed. -/
structure Walkable (d : Disk) (current : FilePath) : Prop where
  self : d.isDirectory current = true → d.Listable current
  group : ∀ g, IsName g → d.isDirectory (current / g) = true → d.Listable (current / g)

section

variable {d : Disk} {p : FilePath} {m n g : String}

/-- What can be listed is a directory that may be read. -/
theorem listable_iff : d.Listable p ↔
    ∃ l r, d.locate p = .ok l ∧ d.entry? l = some (.directory r) ∧ r.read = true := by
  constructor
  · rintro ⟨names, h⟩
    obtain ⟨l, r, hl, he, hr, -⟩ := names_of_list h
    exact ⟨l, r, hl, he, hr⟩
  · rintro ⟨l, r, hl, he, hr⟩
    exact ⟨d.names l, by simp [list, hl, he, hr]⟩

/-- What can be listed has the sub-directories with these names. -/
theorem subdirectories_of_listable (h : d.Listable p) :
    d.view.subdirectories p = .ok ((d.view.directoryNames p).map (p / ·)) := by
  obtain ⟨names, hlist⟩ := h
  exact DiskView.subdirectories_eq_directoryNames (v := d.view) hlist

/-- What cannot be listed has none to show, for the same cause. -/
theorem subdirectories_of_error {e : DiskError} (h : d.list p = .error e) :
    d.view.subdirectories p = .error e := by
  have hlist : d.view.list p = .error e := h
  exact DiskView.subdirectories_eq_error_iff.mpr hlist

/-- A directory is listed where it lies. -/
theorem mem_of_isDirectory {names : List String} (hd : d.LinkFree) (hlist : d.list p = .ok names)
    (hn : IsName n) (hdir : d.isDirectory (p / n) = true) : n ∈ names := by
  obtain ⟨l, r, hl, he, hr, rfl⟩ := names_of_list hlist
  obtain ⟨-, k, hk⟩ := (isDirectory_join_iff hd p hn).mp hdir
  obtain ⟨k', hreach, rfl, henter⟩ := exists_of_reach_join hn hk
  obtain rfl := Except.ok.inj ((reach_of_locate hd hl he).symm.trans hreach)
  obtain ⟨-, -, -, r', hr'⟩ := enter_eq_ok_iff.mp henter
  exact mem_names_iff.mpr ⟨_, hr'⟩

/-- The names of the sub-directories are those that lead to directories. -/
theorem mem_directoryNames_iff (hd : d.IsPlain) (h : d.Listable p) :
    n ∈ d.view.directoryNames p ↔ IsName n ∧ d.isDirectory (p / n) = true := by
  obtain ⟨names, hlist⟩ := h
  rw [DiskView.directoryNames_of_list (v := d.view) hlist, List.mem_filter,
    (List.mergeSort_perm names _).mem_iff]
  exact and_congr_left fun hdir => ⟨hd.tree.wellNamed.isName hlist n,
    fun hn => mem_of_isDirectory hd.linkFree hlist hn hdir⟩

/-- It is no matter whether a directory is there, if it can be listed where it is. -/
theorem mem_directoryNames_join_iff (hd : d.IsPlain) (hm : IsName m)
    (h : d.isDirectory (p / m) = true → d.Listable (p / m)) :
    n ∈ d.view.directoryNames (p / m) ↔ IsName n ∧ d.isDirectory (p / m / n) = true := by
  cases hlist : d.list (p / m) with
  | ok names => exact mem_directoryNames_iff hd ⟨names, hlist⟩
  | error e =>
      rw [DiskView.directoryNames_of_error (v := d.view) hlist]
      refine ⟨fun hn => by simp at hn, fun ⟨hn, hdir⟩ => ?_⟩
      obtain ⟨names, hnames⟩ := h (isDirectory_of_join hd.linkFree hm hn hdir)
      exact absurd (hlist.symm.trans hnames) (by simp)

/-- **The pairs of a walk** are those that lead to directories. -/
theorem mem_grouped_iff (hd : d.IsPlain) (hm : IsName m) (h : d.Walkable (p / m)) :
    (g, n) ∈ d.view.grouped (p / m) ↔
      IsName g ∧ IsName n ∧ d.isDirectory (p / m / g / n) = true := by
  rw [DiskView.grouped, List.mem_flatMap]
  constructor
  · rintro ⟨g', hg', hmem⟩
    obtain ⟨n', hn', heq⟩ := List.mem_map.mp hmem
    obtain ⟨rfl, rfl⟩ := Prod.mk.inj heq
    obtain ⟨hg, -⟩ := (mem_directoryNames_join_iff hd hm h.self).mp hg'
    exact ⟨hg, (mem_directoryNames_join_iff hd hg (h.group _ hg)).mp hn'⟩
  · rintro ⟨hg, hn, hdir⟩
    refine ⟨g, ?_, List.mem_map.mpr ⟨n, ?_, rfl⟩⟩
    · exact (mem_directoryNames_join_iff hd hm h.self).mpr
        ⟨hg, isDirectory_of_join hd.linkFree hg hn hdir⟩
    · exact (mem_directoryNames_join_iff hd hg (h.group g hg)).mpr ⟨hn, hdir⟩

/-- Nothing is below what cannot be listed. -/
theorem grouped_of_error {e : DiskError} (h : d.list p = .error e) : d.view.grouped p = [] := by
  rw [DiskView.grouped, DiskView.directoryNames_of_error (v := d.view) h, List.flatMap_nil]

/-- Nothing is below what is no directory. -/
theorem grouped_of_not_isDirectory (h : d.isDirectory p = false) : d.view.grouped p = [] := by
  cases hlist : d.list p with
  | error e => exact grouped_of_error hlist
  | ok names =>
      obtain ⟨l, r, hl, he, -⟩ := listable_iff.mp ⟨names, hlist⟩
      exact absurd (h.symm.trans (isDirectory_iff.mpr ⟨l, r, hl, he⟩)) (by simp)

end

end Disk

namespace Scan

/-- The stop at the directory that a pair of names leads to. -/
def stopAt (current : FilePath) (x : String × String) : Stop := .candidate (current / x.1 / x.2)

/-- The stops that the pairs below a directory make. -/
def stopsBelow (d : Disk) (current : FilePath) : List Stop :=
  (d.view.grouped current).map (stopAt current)

theorem candidate_mem_stopsBelow_iff {d : Disk} {current dir : FilePath} :
    .candidate dir ∈ stopsBelow d current ↔
      ∃ x ∈ d.view.grouped current, current / x.1 / x.2 = dir := by
  simp [stopsBelow, stopAt]

/-- **What lies ahead of a scan** are the directories that the pairs lead to. -/
theorem stops_of_listable {d : Disk} {p : FilePath} {m : String} (hd : d.IsPlain) (hm : IsName m)
    (h : d.Walkable (p / m)) (hlist : d.Listable (p / m)) :
    stops d.view (p / m) = .ok (stopsBelow d (p / m)) := by
  have hgroup : ∀ g ∈ d.view.directoryNames (p / m), stopsIn d.view (p / m / g) =
      ((d.view.directoryNames (p / m / g)).map fun n => (g, n)).map (stopAt (p / m)) := by
    intro g hg
    obtain ⟨hname, hdir⟩ := (Disk.mem_directoryNames_join_iff hd hm h.self).mp hg
    rw [stopsIn, Disk.subdirectories_of_listable (h.group g hname hdir)]
    simp only [List.map_map]
    rfl
  rw [stops, Disk.subdirectories_of_listable hlist]
  simp only [Except.map, List.flatMap_map, stopsBelow, DiskView.grouped, List.map_flatMap]
  exact congrArg (Except.ok ∘ List.flatten) (List.map_congr_left hgroup)

end Scan

end StorageNode
