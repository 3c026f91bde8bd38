import Mathlib.Control.Monad.Basic
import StorageNode.Disk.View
import StorageNode.Proofs.FilePath
import StorageNode.Proofs.Utf8

/-!
# Sub-directories of a directory

`DiskView.Subdirectories v dir ds` says what the sub-directories of `dir` are without saying how they
are found: those of its entries that are directories, links followed, in byte order of their names.
There is one such list (`Subdirectories.unique`), and `subdirectories_eq_ok_iff` says that it is the
one the reader computes. A file system lists entries by names, and none twice
(`DiskView.WellNamed`); what follows from that for sub-directories is collected at the end.
-/

namespace StorageNode

namespace DiskView

/-- What every file system keeps to when it lists a directory: entries are given by names, and none
is given twice. -/
structure WellNamed (v : DiskView) : Prop where
  isName : ∀ {dir names}, v.list dir = .ok names → ∀ n ∈ names, FilePath.IsName n
  nodup : ∀ {dir names}, v.list dir = .ok names → names.Nodup

/-- The names of the sub-directories of a directory, in byte order. -/
structure SubdirectoryNames (v : DiskView) (dir : FilePath) (names : List String) : Prop where
  /-- They are the listed names that lead to directories. -/
  listed : ∃ all, v.list dir = .ok all ∧
    names.Perm (all.filter fun n => v.isDirectory (dir / n))
  ordered : names.Pairwise fun m n => ¬ Utf8.encode n < Utf8.encode m

/-- The sub-directories of a directory, links followed, in byte order of their names. -/
def Subdirectories (v : DiskView) (dir : FilePath) (ds : List FilePath) : Prop :=
  ∃ names, v.SubdirectoryNames dir names ∧ ds = names.map (dir / ·)

/-- Byte order is the order in which names are sorted. -/
theorem not_encode_lt_iff {m n : String} : ¬ Utf8.encode n < Utf8.encode m ↔ m ≤ n := by
  rw [Utf8.encode_lt_encode, String.not_lt]

/-- Directories are picked from the sorted names either before or after they are joined. -/
theorem subdirectories_of_list {v : DiskView} {dir : FilePath} {all : List String}
    (h : v.list dir = .ok all) :
    v.subdirectories dir =
      .ok (((all.mergeSort (· ≤ ·)).filter fun n => v.isDirectory (dir / n)).map (dir / ·)) := by
  simp only [subdirectories, h, Except.map, List.filter_map]
  rfl

/-- The names that a reader sorts are those of the sub-directories, in byte order. -/
theorem subdirectoryNames_mergeSort {v : DiskView} {dir : FilePath} {all : List String}
    (h : v.list dir = .ok all) :
    v.SubdirectoryNames dir
      ((all.mergeSort (· ≤ ·)).filter fun n => v.isDirectory (dir / n)) where
  listed := ⟨all, h, (List.mergeSort_perm all _).filter _⟩
  ordered := by
    have hsorted : (all.mergeSort (· ≤ ·)).Pairwise fun m n => decide (m ≤ n) = true :=
      List.pairwise_mergeSort
        (fun a b c hab hbc => by
          simp only [decide_eq_true_eq] at hab hbc ⊢
          exact String.le_trans hab hbc)
        (fun a b => by simpa using String.le_total a b) all
    refine (hsorted.filter _).imp fun hmn => ?_
    exact not_encode_lt_iff.mpr (of_decide_eq_true hmn)

/-- Sorting leaves no choice. -/
theorem SubdirectoryNames.unique {v : DiskView} {dir : FilePath} {ms ns : List String}
    (hm : v.SubdirectoryNames dir ms) (hn : v.SubdirectoryNames dir ns) : ms = ns := by
  obtain ⟨all, hall, hperm⟩ := hm.listed
  obtain ⟨all', hall', hperm'⟩ := hn.listed
  obtain rfl : all = all' := Except.ok.inj (hall.symm.trans hall')
  refine List.Perm.eq_of_pairwise (fun a b _ _ hab hba => ?_) hm.ordered hn.ordered
    (hperm.trans hperm'.symm)
  exact String.le_antisymm (not_encode_lt_iff.mp hab) (not_encode_lt_iff.mp hba)

/-- **What the reader takes for sub-directories are the sub-directories.** -/
theorem subdirectories_eq_ok_iff {v : DiskView} {dir : FilePath} {ds : List FilePath} :
    v.subdirectories dir = .ok ds ↔ v.Subdirectories dir ds := by
  constructor
  · intro h
    cases hlist : v.list dir with
    | error e => simp [subdirectories, hlist, Except.map] at h
    | ok all =>
        rw [subdirectories_of_list hlist] at h
        exact ⟨_, subdirectoryNames_mergeSort hlist, (Except.ok.inj h).symm⟩
  · rintro ⟨names, hnames, rfl⟩
    obtain ⟨all, hlist, -⟩ := hnames.listed
    rw [subdirectories_of_list hlist,
      hnames.unique (subdirectoryNames_mergeSort hlist)]

/-- A directory whose entries cannot be listed has no sub-directories to show, for the same cause. -/
theorem subdirectories_eq_error_iff {v : DiskView} {dir : FilePath} {e : DiskError} :
    v.subdirectories dir = .error e ↔ v.list dir = .error e := by
  cases hlist : v.list dir with
  | error e' => simp [subdirectories, hlist, Except.map]
  | ok all => simp [subdirectories_of_list hlist]

/-- Where the names are listed in byte order already, sorting changes nothing. -/
theorem subdirectories_of_ordered {v : DiskView} {dir : FilePath} (all : List String)
    (h : v.list dir = .ok all)
    (hord : all.Pairwise fun m n => ¬ Utf8.encode n < Utf8.encode m) :
    v.subdirectories dir = .ok ((all.filter fun n => v.isDirectory (dir / n)).map (dir / ·)) :=
  subdirectories_eq_ok_iff.mpr ⟨_, ⟨⟨all, h, .refl _⟩, hord.filter _⟩, rfl⟩

/-- Views that list the same, and agree on which names lead to directories, show the same
sub-directories. -/
theorem subdirectories_congr {v w : DiskView} {dir : FilePath} (hlist : v.list dir = w.list dir)
    (hdir : ∀ {names n}, v.list dir = .ok names → n ∈ names →
      v.isDirectory (dir / n) = w.isDirectory (dir / n)) :
    v.subdirectories dir = w.subdirectories dir := by
  cases hv : v.list dir with
  | error e =>
      rw [subdirectories_eq_error_iff.mpr hv, subdirectories_eq_error_iff.mpr (hlist ▸ hv)]
  | ok names =>
      have hfilter : (names.mergeSort (· ≤ ·)).filter (fun n => v.isDirectory (dir / n)) =
          (names.mergeSort (· ≤ ·)).filter (fun n => w.isDirectory (dir / n)) :=
        List.filter_congr fun n hn => hdir hv ((List.mergeSort_perm names _).mem_iff.mp hn)
      rw [subdirectories_of_list hv, subdirectories_of_list (hlist ▸ hv), hfilter]

/-! ## In a file system -/

section WellNamed

variable {v : DiskView} {dir : FilePath} {ds : List FilePath}

/-- A sub-directory is a listed name below its directory. -/
theorem exists_name_of_mem_subdirectories (hv : v.WellNamed) (h : v.subdirectories dir = .ok ds)
    {d : FilePath} (hd : d ∈ ds) :
    ∃ name, FilePath.IsName name ∧ d = dir / name ∧ v.isDirectory d = true := by
  obtain ⟨names, hnames, rfl⟩ := subdirectories_eq_ok_iff.mp h
  obtain ⟨name, hname, rfl⟩ := List.mem_map.mp hd
  obtain ⟨all, hall, hperm⟩ := hnames.listed
  obtain ⟨hmem, hdir⟩ := List.mem_filter.mp (hperm.mem_iff.mp hname)
  exact ⟨name, hv.isName hall name hmem, rfl, hdir⟩

/-- Sub-directories are listed once. -/
theorem nodup_subdirectories (hv : v.WellNamed) (h : v.subdirectories dir = .ok ds) :
    ds.Nodup := by
  obtain ⟨names, hnames, rfl⟩ := subdirectories_eq_ok_iff.mp h
  obtain ⟨all, hall, hperm⟩ := hnames.listed
  have hnodup : names.Nodup := hperm.nodup_iff.mpr ((hv.nodup hall).filter _)
  have hisName : ∀ n ∈ names, FilePath.IsName n := fun n hn =>
    hv.isName hall n (List.mem_filter.mp (hperm.mem_iff.mp hn)).1
  exact List.pairwise_map.mpr <| hnodup.imp_of_mem fun hm hn hne heq =>
    hne (FilePath.join_inj (hisName _ hm) (hisName _ hn) heq)

end WellNamed

end DiskView

end StorageNode
