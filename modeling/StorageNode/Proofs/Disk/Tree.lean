import StorageNode.Disk.Task
import StorageNode.Proofs.DiskView

/-!
# Disks that are trees

A disk is a map of locations, and not every such map is one that a file system could hold: what bears
a name has to lie in a directory (`Disk.IsTree`). Readers of a tree get names, and no name twice
(`Disk.IsTree.wellNamed`).

A change is *sound* on a disk (`Disk.Sound`) if it puts new things only where nothing is, in a
directory, and moves files only. Sound changes keep trees (`IsTree.apply`), bring no links
(`LinkFree.apply`) and leave every directory in place with its rights
(`Sound.entry?_of_directory`). What each of several changes keeps holds behind all of them
(`DiskChange.Run.keeps`).
-/

namespace StorageNode

/-- Whether a text is a name can be found out. -/
instance FilePath.decidableIsName (name : String) : Decidable (FilePath.IsName name) :=
  decidable_of_iff (name ≠ "" ∧ '/' ∉ name.toList ∧ name ≠ "." ∧ name ≠ "..")
    ⟨fun ⟨h₁, h₂, h₃, h₄⟩ => ⟨h₁, h₂, h₃, h₄⟩, fun ⟨h₁, h₂, h₃, h₄⟩ => ⟨h₁, h₂, h₃, h₄⟩⟩

namespace Disk

/-- There is a root, and what bears a name lies in a directory. -/
structure IsTree (d : Disk) : Prop where
  root : ∃ r, d.entry? [] = some (.directory r)
  parent : ∀ {n l e}, d.entry? (n :: l) = some e →
    FilePath.IsName n ∧ ∃ r, d.entry? l = some (.directory r)

/-- There are no symbolic links. -/
def LinkFree (d : Disk) : Prop := ∀ l target, d.entry? l ≠ some (.link target)

/-- A tree without links. -/
structure IsPlain (d : Disk) : Prop where
  tree : d.IsTree
  linkFree : d.LinkFree

/-- A place where a directory is. -/
def holdsDirectory (d : Disk) (l : Location) : Bool :=
  match d.entry? l with
  | some (.directory _) => true
  | _ => false

theorem holdsDirectory_iff {d : Disk} {l : Location} :
    d.holdsDirectory l = true ↔ ∃ r, d.entry? l = some (.directory r) := by
  unfold holdsDirectory
  split
  · next r h => simp [h]
  · next h => simpa using h

/-- What is at a place has a name and lies in a directory; the root is a directory itself. -/
def isPlaced (d : Disk) : Location → Bool
  | [] => d.holdsDirectory []
  | n :: l => decide (FilePath.IsName n) && d.holdsDirectory l

/-- That a disk is a tree can be read off the list of its entries. -/
theorem IsTree.of_keys {d : Disk} (h : ([] :: d.keys).all d.isPlaced = true) : d.IsTree where
  root := holdsDirectory_iff.mp (List.all_eq_true.mp h [] List.mem_cons_self)
  parent := by
    intro n l e he
    have hmem : n :: l ∈ d.keys := SortedMap.mem_keys_iff.mpr ⟨e, he⟩
    have hplaced : d.isPlaced (n :: l) = true :=
      List.all_eq_true.mp h _ (List.mem_cons_of_mem _ hmem)
    obtain ⟨hn, hl⟩ : FilePath.IsName n ∧ d.holdsDirectory l = true := by
      simpa [isPlaced] using hplaced
    exact ⟨hn, holdsDirectory_iff.mp hl⟩

/-- That there are no links can be read off it too. -/
theorem LinkFree.of_entries {d : Disk} (h : ∀ l target, (l, .link target) ∉ d.entries) :
    d.LinkFree :=
  fun l target hl => h l target (SortedMap.get?_eq_some_iff.mp hl)

/-! ## Names in a directory -/

theorem mem_names_iff {d : Disk} {l : Location} {n : String} :
    n ∈ d.names l ↔ ∃ e, d.entry? (n :: l) = some e := by
  rw [show (∃ e, d.entry? (n :: l) = some e) ↔ n :: l ∈ d.keys from SortedMap.mem_keys_iff.symm,
    names, List.mem_filterMap]
  constructor
  · rintro ⟨k, hk, hn⟩
    cases k with
    | nil => simp at hn
    | cons m dir =>
        obtain ⟨rfl, rfl⟩ : dir = l ∧ m = n := by simpa using hn
        exact hk
  · exact fun h => ⟨n :: l, h, by simp⟩

/-- Names come out in their order. -/
theorem ascending_names (d : Disk) (l : Location) : (d.names l).Pairwise (· < ·) := by
  refine List.Pairwise.filterMap _ ?_ (List.pairwise_map.mpr d.ascending)
  intro k k' hlt n hn n' hn'
  cases k with
  | nil => simp at hn
  | cons m dir =>
      cases k' with
      | nil => simp at hn'
      | cons m' dir' =>
          obtain ⟨rfl, rfl⟩ : dir = l ∧ m = n := by simpa using hn
          obtain ⟨rfl, rfl⟩ : dir' = dir ∧ m' = n' := by simpa using hn'
          rcases List.cons_lt_cons_iff.mp hlt with hfirst | ⟨-, hrest⟩
          · exact hfirst
          · exact absurd hrest (KeyOrder.irrefl _)

/-- No name is in a directory twice. -/
theorem nodup_names (d : Disk) (l : Location) : (d.names l).Nodup :=
  (d.ascending_names l).imp String.ne_of_lt

/-- Directories that have entries under the same names show the same. -/
theorem names_congr {d d' : Disk} {l : Location}
    (h : ∀ n, (∃ e, d.entry? (n :: l) = some e) ↔ ∃ e, d'.entry? (n :: l) = some e) :
    d.names l = d'.names l := by
  have hperm : (d.names l).Perm (d'.names l) :=
    (List.perm_ext_iff_of_nodup (d.nodup_names l) (d'.nodup_names l)).mpr fun n =>
      mem_names_iff.trans ((h n).trans mem_names_iff.symm)
  exact hperm.eq_of_pairwise (fun a b _ _ hab hba => absurd hba (String.lt_asymm hab))
    (d.ascending_names l) (d'.ascending_names l)

/-- What is listed are the names in a directory that may be read. -/
theorem names_of_list {d : Disk} {p : FilePath} {names : List String} (h : d.list p = .ok names) :
    ∃ l r, d.locate p = .ok l ∧ d.entry? l = some (.directory r) ∧ r.read = true ∧
      names = d.names l := by
  unfold list at h
  cases hl : d.locate p with
  | error e => simp [hl] at h
  | ok l =>
      rw [hl] at h
      cases he : d.entry? l with
      | none => simp [he] at h
      | some e =>
          cases e with
          | file => simp [he] at h
          | link => simp [he] at h
          | directory r =>
              cases hr : r.read with
              | false => simp [he, hr] at h
              | true => exact ⟨l, r, rfl, he, hr, by simpa [he, hr] using h.symm⟩

/-- **Readers of a tree get names**, and none twice. -/
theorem IsTree.wellNamed {d : Disk} (hd : d.IsTree) : d.view.WellNamed where
  isName := by
    intro dir names h n hn
    obtain ⟨l, -, -, -, -, rfl⟩ := names_of_list h
    obtain ⟨e, he⟩ := mem_names_iff.mp hn
    exact (hd.parent he).1
  nodup := by
    intro dir names h
    obtain ⟨l, -, -, -, -, rfl⟩ := names_of_list h
    exact nodup_names d l

/-- A tree with a volume at `/v`: in its cluster `c` there are three groups, one that cannot be
listed, one with a container's directory and one that no container has, and one more. -/
def sample : Disk where
  entries := [
    ([], .directory .ofDirectory),
    (["7", "b", "current", "c", "v"], .directory .ofDirectory),
    (["8", "d", "current", "c", "v"], .directory .ofDirectory),
    (["a", "current", "c", "v"], .directory ⟨false, true, true⟩),
    (["b", "current", "c", "v"], .directory .ofDirectory),
    (["c", "v"], .directory .ofDirectory),
    (["current", "c", "v"], .directory .ofDirectory),
    (["d", "current", "c", "v"], .directory .ofDirectory),
    (["v"], .directory .ofDirectory),
    (["x", "b", "current", "c", "v"], .directory .ofDirectory)]
  ascending := by decide

theorem isTree_sample : sample.IsTree := IsTree.of_keys (by decide)

end Disk

/-- The places that a change is about. -/
def DiskChange.places : DiskChange → List Location
  | makeDirectory l => [l]
  | makeFile l => [l]
  | truncate l => [l]
  | append l _ => [l]
  | sync l => [l]
  | move source target => [source, target]

namespace Disk

/-! ## Sound changes -/

/-- A place for something new: a name in a directory that holds nothing of that name. -/
structure Vacant (d : Disk) (n : String) (dir : Location) : Prop where
  isName : FilePath.IsName n
  directory : ∃ r, d.entry? dir = some (.directory r)
  empty : d.entry? (n :: dir) = none

/-- **What may be done to a disk**: new things where nothing is, new content for what is there, and a
file moved to a new place or over another file. -/
inductive Sound (d : Disk) : DiskChange → Prop
  | makeDirectory {n : String} {dir : Location} (h : d.Vacant n dir) :
      Sound d (.makeDirectory (n :: dir))
  | makeFile {n : String} {dir : Location} (h : d.Vacant n dir) : Sound d (.makeFile (n :: dir))
  | truncate (l : Location) : Sound d (.truncate l)
  | append (l : Location) (bytes : Bytes) : Sound d (.append l bytes)
  | sync (l : Location) : Sound d (.sync l)
  | move {source dir : Location} {n : String} {r : Rights} {content : Bytes}
      (hsource : d.entry? source = some (.file r content)) (hn : FilePath.IsName n)
      (hdir : ∃ r, d.entry? dir = some (.directory r))
      (hold : ∀ r, d.entry? (n :: dir) ≠ some (.directory r)) :
      Sound d (.move source (n :: dir))

@[simp] theorem entry?_insert (d : Disk) (k l : Location) (e : DiskEntry) :
    entry? (SortedMap.insert d k e) l = if l = k then some e else d.entry? l :=
  SortedMap.get?_insert d k l e

@[simp] theorem entry?_erase (d : Disk) (k l : Location) :
    entry? (SortedMap.erase d k) l = if l = k then none else d.entry? l :=
  SortedMap.get?_erase d k l

section Sound

variable {d : Disk} {c : DiskChange}

/-- Nothing happens at other places than those of the change. -/
theorem entry?_apply_of_not_mem {l : Location} (h : l ∉ c.places) :
    entry? (c.apply d) l = d.entry? l := by
  cases c with
  | makeDirectory k | makeFile k =>
      obtain hne : l ≠ k := by simpa [DiskChange.places] using h
      simp [DiskChange.apply, hne]
  | truncate k | append k =>
      obtain hne : l ≠ k := by simpa [DiskChange.places] using h
      simp only [DiskChange.apply]
      split
      · simp [hne]
      · rfl
  | sync => rfl
  | move source target =>
      obtain ⟨hsource, htarget⟩ : l ≠ source ∧ l ≠ target := by simpa [DiskChange.places] using h
      simp only [DiskChange.apply]
      split
      · simp [hsource, htarget]
      · rfl

/-- **Directories stay**, with their rights. -/
theorem Sound.entry?_of_directory (h : d.Sound c) {l : Location} {r : Rights}
    (hl : d.entry? l = some (.directory r)) : entry? (c.apply d) l = some (.directory r) := by
  cases h with
  | @makeDirectory n dir h | @makeFile n dir h =>
      have hne : l ≠ n :: dir := fun heq => by simp [heq, h.empty] at hl
      simpa [DiskChange.apply, hne] using hl
  | truncate k | append k =>
      simp only [DiskChange.apply]
      split
      · next r' content hk =>
          have hne : l ≠ k := fun heq => by simp [heq, hk] at hl
          simpa [hne] using hl
      · exact hl
  | sync => exact hl
  | @move source dir n _ _ hsource hn hdir hold =>
      have hsrc : l ≠ source := fun heq => by simp [heq, hsource] at hl
      have htgt : l ≠ n :: dir := fun heq => hold r (heq ▸ hl)
      simpa [DiskChange.apply, hsource, hsrc, htgt] using hl

/-- What is there behind a change was there before, or is new in a directory. -/
theorem Sound.exists_of_entry? (h : d.Sound c) {n : String} {l : Location} {e : DiskEntry}
    (he : entry? (c.apply d) (n :: l) = some e) :
    (∃ e', d.entry? (n :: l) = some e') ∨
      (FilePath.IsName n ∧ ∃ r, d.entry? l = some (.directory r)) := by
  cases h with
  | @makeDirectory m dir h | @makeFile m dir h =>
      by_cases heq : n :: l = m :: dir
      · obtain ⟨rfl, rfl⟩ := List.cons.inj heq
        exact .inr ⟨h.isName, h.directory⟩
      · exact .inl ⟨e, by simpa only [DiskChange.apply, entry?_insert, if_neg heq] using he⟩
  | truncate k | append k =>
      simp only [DiskChange.apply] at he
      split at he
      · next r content hk =>
          by_cases heq : n :: l = k
          · exact .inl ⟨_, heq ▸ hk⟩
          · exact .inl ⟨e, by simpa only [entry?_insert, if_neg heq] using he⟩
      · exact .inl ⟨e, he⟩
  | sync => exact .inl ⟨e, he⟩
  | @move source dir m _ _ hsource hn hdir hold =>
      by_cases heq : n :: l = m :: dir
      · obtain ⟨rfl, rfl⟩ := List.cons.inj heq
        exact .inr ⟨hn, hdir⟩
      · simp only [DiskChange.apply, hsource, entry?_insert, entry?_erase, if_neg heq] at he
        split at he
        · simp at he
        · exact .inl ⟨e, he⟩

/-- **Sound changes keep trees.** -/
theorem IsTree.apply (hd : d.IsTree) (h : d.Sound c) : IsTree (c.apply d) where
  root := by
    obtain ⟨r, hr⟩ := hd.root
    exact ⟨r, h.entry?_of_directory hr⟩
  parent := by
    intro n l e he
    obtain ⟨hn, r, hr⟩ : FilePath.IsName n ∧ ∃ r, d.entry? l = some (.directory r) := by
      rcases h.exists_of_entry? he with ⟨e', he'⟩ | hnew
      · exact hd.parent he'
      · exact hnew
    exact ⟨hn, r, h.entry?_of_directory hr⟩

/-- Anything but a link may be put on a disk without links. -/
theorem LinkFree.insert (hd : d.LinkFree) {l : Location} {e : DiskEntry}
    (he : ∀ target, e ≠ .link target) : LinkFree (d.insert l e) := by
  intro k target hk
  rw [entry?_insert] at hk
  split at hk
  · exact he target (Option.some.inj hk)
  · exact hd k target hk

/-- Sound changes bring no links. -/
theorem LinkFree.apply (hd : d.LinkFree) (h : d.Sound c) : LinkFree (c.apply d) := by
  cases h with
  | makeDirectory | makeFile => exact hd.insert (by simp)
  | truncate | append =>
      simp only [DiskChange.apply]
      split
      · exact hd.insert (by simp)
      · exact hd
  | sync => exact hd
  | move hsource =>
      simp only [DiskChange.apply, hsource]
      refine LinkFree.insert (fun k target hk => ?_) (by simp)
      rw [entry?_erase] at hk
      split at hk
      · simp at hk
      · exact hd k target hk

end Sound

end Disk

/-! ## Changes one after another -/

namespace DiskChange

/-- Changes each of which may be made on the disk that the ones before it leave. -/
inductive Run (R : Disk → DiskChange → Prop) : Disk → List DiskChange → Prop
  | nil (d : Disk) : Run R d []
  | cons {d : Disk} {c : DiskChange} {cs : List DiskChange} (hc : R d c)
      (h : Run R (c.apply d) cs) : Run R d (c :: cs)

namespace Run

variable {R : Disk → DiskChange → Prop} {d : Disk} {cs : List DiskChange}

/-- **What each change keeps holds behind all of them.** -/
theorem keeps {I : Disk → Prop} (hstep : ∀ d c, I d → R d c → I (c.apply d)) (h : Run R d cs)
    (hd : I d) : I (applyAll d cs) := by
  induction h with
  | nil => exact hd
  | cons hc _ ih => exact ih (hstep _ _ hd hc)

theorem mono {S : Disk → DiskChange → Prop} (hRS : ∀ d c, R d c → S d c) (h : Run R d cs) :
    Run S d cs := by
  induction h with
  | nil => exact .nil _
  | cons hc _ ih => exact .cons (hRS _ _ hc) ih

theorem append {more : List DiskChange} (h : Run R d cs) (hmore : Run R (applyAll d cs) more) :
    Run R d (cs ++ more) := by
  induction h with
  | nil => exact hmore
  | cons hc _ ih => exact .cons hc (ih hmore)

end Run

end DiskChange

end StorageNode
