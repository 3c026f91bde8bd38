import StorageNode.Proofs.Disk.Effects

/-!
# Disks that differ in one directory

Two disks may be the same but for what lies in one directory (`Disk.AlikeOutside`). A reader who goes down
from a root by names passes the same directories of both as long as the way does not lead into the one
(`AlikeOutside.reach_below`), and gets the same answers there (`AlikeOutside.agreeOutside`): to readers,
the disks agree outside the directory (`DiskView.AgreeOutside`).

By dots, or by links, other paths lead into the directory too. A scan asks about no paths with dots, so
these do not count; links are left out of the disks.
-/

namespace StorageNode

namespace DiskView

/-- The two views give the same answers about a path. -/
structure AgreeAt (v w : DiskView) (p : FilePath) : Prop where
  list : v.list p = w.list p
  isDirectory : v.isDirectory p = w.isDirectory p
  isFile : v.isFile p = w.isFile p
  read : v.read p = w.read p

/-- The two views give the same answers about every path that goes down from `root` by names, but for `dir`
and what goes down from there. -/
def AgreeOutside (v w : DiskView) (root dir : FilePath) : Prop :=
  ∀ p : FilePath, p.IsBelow root → ¬ dir.components <+: p.components → v.AgreeAt w p

end DiskView

namespace Disk

/-- The two disks are the same but for what lies in a directory, which is there in both. -/
structure AlikeOutside (d d' : Disk) (home : Location) : Prop where
  entry : ∀ l, ¬ home <:+ l → d'.entry? l = d.entry? l
  directory : ∃ r, d.entry? home = some (.directory r)
  directory' : ∃ r, d'.entry? home = some (.directory r)

/-- Putting anything into a directory leaves the disk as it is outside. -/
theorem AlikeOutside.insert {d : Disk} {home l : Location} (h : ∃ r, d.entry? home = some (.directory r))
    (hin : home <:+ l) (hne : l ≠ home) (e : DiskEntry) : d.AlikeOutside (d.insert l e) home where
  entry m hm := by
    have hml : m ≠ l := fun heq => hm (heq ▸ hin)
    rw [entry?_insert, if_neg hml]
  directory := h
  directory' := by
    rw [entry?_insert, if_neg hne.symm]
    exact h

section

variable {d d' : Disk} {root : FilePath} {base : Location} {rel : List String}

/-- Outside the directory the same is found. -/
theorem AlikeOutside.entry_below (h : d.AlikeOutside d' (rel ++ base)) {ns : List String}
    (hout : ¬ rel <:+ ns) : d'.entry? (ns ++ base) = d.entry? (ns ++ base) :=
  h.entry _ (mt List.suffix_append_self_iff.mp hout)

/-- Names lead down to the same place outside the directory. -/
theorem AlikeOutside.sameAt (h : d.AlikeOutside d' (rel ++ base)) (hroot : d.reach root = .ok base)
    {n : String} {ns : List String} (hns : ∀ m ∈ ns, FilePath.IsName m) (hout : ¬ rel <:+ n :: ns)
    (hreach : d'.reach (root.below ns) = d.reach (root.below ns)) :
    d.SameAt d' (root.below ns) n where
  reach := hreach
  directory hk := by
    rw [Disk.reach_below hroot hns hk]
    exact h.entry_below (mt (List.suffix_cons_iff.mpr ∘ .inr) hout)
  entry hk := by
    rw [Disk.reach_below hroot hns hk]
    exact h.entry_below hout

/-- **The way down is the same outside the directory.** -/
theorem AlikeOutside.reach_below (h : d.AlikeOutside d' (rel ++ base)) (hroot : d.reach root = .ok base)
    (hroot' : d'.reach root = .ok base) :
    ∀ {ns : List String}, (∀ n ∈ ns, FilePath.IsName n) → ¬ rel <:+ ns →
      d'.reach (root.below ns) = d.reach (root.below ns)
  | [], _, _ => hroot'.trans hroot.symm
  | n :: ns, hnames, hout => by
      obtain ⟨hn, hns⟩ := List.forall_mem_cons.mp hnames
      have hreach := h.reach_below hroot hroot' hns (mt (List.suffix_cons_iff.mpr ∘ .inr) hout)
      exact (h.sameAt hroot hns hout hreach).reach_join hn

/-- What such a way down leads to is in the same place, where the names say. -/
theorem AlikeOutside.locate_below (h : d.AlikeOutside d' (rel ++ base)) (hd : d.LinkFree)
    (hd' : d'.LinkFree) (hroot : d.reach root = .ok base) (hroot' : d'.reach root = .ok base)
    {ns : List String} (hnames : ∀ n ∈ ns, FilePath.IsName n) (hout : ¬ rel <:+ ns) :
    d'.locate (root.below ns) = d.locate (root.below ns) ∧
      ∀ k, d.locate (root.below ns) = .ok k → k = ns ++ base := by
  cases ns with
  | nil =>
      cases hf : fault? root with
      | some e => simp [FilePath.below, locate, resolve_of_fault hf]
      | none =>
          rw [FilePath.below, locate_of_reach hd hf hroot, locate_of_reach hd' hf hroot']
          exact ⟨rfl, fun k hk => (Except.ok.inj hk).symm⟩
  | cons n ns =>
      obtain ⟨hn, hns⟩ := List.forall_mem_cons.mp hnames
      have hreach := h.reach_below hroot hroot' hns (mt (List.suffix_cons_iff.mpr ∘ .inr) hout)
      refine ⟨((h.sameAt hroot hns hout hreach).locate_join hd hd' hn).1, fun k hk => ?_⟩
      obtain ⟨l, hl, rfl⟩ := exists_of_locate_join hd hn hk
      rw [Disk.reach_below hroot hns hl]
      rfl

/-- A directory outside shows the same names: the one directory may be among them, and is there in both. -/
theorem AlikeOutside.names_below (h : d.AlikeOutside d' (rel ++ base)) {ns : List String}
    (hout : ¬ rel <:+ ns) : d.names (ns ++ base) = d'.names (ns ++ base) := by
  refine names_congr fun n => ?_
  by_cases hin : rel <:+ n :: ns
  · obtain rfl := (List.suffix_cons_iff.mp hin).resolve_right hout
    obtain ⟨r, hr⟩ := h.directory
    obtain ⟨r', hr'⟩ := h.directory'
    exact ⟨fun _ => ⟨_, hr'⟩, fun _ => ⟨_, hr⟩⟩
  · have hsame := h.entry_below hin
    rw [List.cons_append] at hsame
    rw [hsame]

/-- **To readers, disks that differ in one directory agree outside it.** -/
theorem AlikeOutside.agreeOutside (rel : List String) (h : d.AlikeOutside d' (rel ++ base))
    (hd : d.LinkFree) (hd' : d'.LinkFree) (hroot : d.reach root = .ok base)
    (hroot' : d'.reach root = .ok base) (hrel : ∀ n ∈ rel, FilePath.IsName n) :
    d.view.AgreeOutside d'.view root (root.below rel) := by
  rintro p ⟨ns, hns, rfl⟩ hprefix
  have hout : ¬ rel <:+ ns := mt (FilePath.components_below_prefix root hrel hns) hprefix
  obtain ⟨hlocate, hplace⟩ := h.locate_below hd hd' hroot hroot' hns hout
  have hsame : ∀ k, d.locate (root.below ns) = .ok k → d'.entry? k = d.entry? k := fun k hk => by
    rw [hplace k hk]
    exact h.entry_below hout
  obtain ⟨hdirectory, hfile, hread⟩ := answers_of_locate hlocate hsame
  refine ⟨?_, hdirectory, hfile, hread⟩
  show d.list _ = d'.list _
  unfold list
  rw [hlocate]
  cases hk : d.locate (root.below ns) with
  | error e => rfl
  | ok k =>
      obtain rfl := hplace k hk
      simp only [hsame _ hk, h.names_below hout]

end

end Disk

end StorageNode
