import StorageNode.Proofs.Placement
import StorageNode.Proofs.Scan.Grouped
import StorageNode.Proofs.Scan.Isolation

/-!
# What readers see of what is spared

A disk on which everything outside the directory of a container is spared (`Placement.Spares`) looks
the same to readers, except for that directory and the ones on the way to it. The same pairs of names
lead to directories, but for the container's own (`Spares.grouped`), the files of other containers are
seen alike (`Spares.seenAlike`), and what could be listed still can (`Spares.walkable`).
-/

namespace StorageNode

open FilePath (IsName)

namespace Placement

open Disk

/-- The names that lead to the directory of a container from the one with the groups. -/
def own (id : ContainerId) : String × String := (Layout.groupName id, ContainerId.text id)

/-- Two ends of a list that are of one length are the same. -/
theorem eq_of_suffixes {α : Type} {xs ys zs : List α} (hx : xs <:+ zs) (hy : ys <:+ zs)
    (h : xs.length = ys.length) : xs = ys :=
  (List.suffix_of_suffix_length_le hx hy (Nat.le_of_eq h)).eq_of_length h

section

variable {d d' : Disk} {root : FilePath} {l home : Location} {cluster g n : String}
  {id : ContainerId}

/-- Beside the directory, and below what is beside it, nothing changes. -/
theorem Spares.beside (h : Spares home d d') {k m : Location} (hlen : k.length = home.length)
    (hne : k ≠ home) (hm : k <:+ m) : d'.entry? m = d.entry? m := by
  rcases h.outside fun hin => hne (eq_of_suffixes hm hin hlen) with hsame | ⟨hon, -⟩
  · exact hsame
  · exact absurd ((hm.trans hon).eq_of_length hlen) hne

/-- A directory that has been there all the time has led there all the time. -/
theorem Spares.isDirectory_below (h : Spares home d d') (hd : d.IsPlain)
    (hroot : d.reach root = .ok l) (ns : List String) (hnames : ∀ m ∈ n :: ns, IsName m)
    (hsame : d'.entry? (n :: ns ++ l) = d.entry? (n :: ns ++ l))
    (hdir : d'.isDirectory (root.below (n :: ns)) = true) :
    d.isDirectory (root.below (n :: ns)) = true := by
  have hn := hnames n List.mem_cons_self
  obtain ⟨hf, k, hk⟩ := (isDirectory_join_iff h.plain.linkFree (root.below ns) hn).mp hdir
  obtain rfl := reach_below (reach_mono h.keeps hroot) hnames hk
  obtain ⟨k, -, heq, henter⟩ := exists_of_reach_join hn hk
  obtain ⟨-, -, -, r, hr⟩ := enter_eq_ok_iff.mp henter
  rw [← heq] at hr
  have hreach : d.reach (root.below (n :: ns)) = .ok (n :: ns ++ l) :=
    reach_below_of_entry hd.tree h.keeps hroot hnames hk ⟨r, hsame.symm.trans hr⟩
  exact (isDirectory_join_iff hd.linkFree (root.below ns) hn).mpr ⟨hf, _, hreach⟩

/-- What is on the way to the directory can be listed if it could be before, or is new. -/
theorem Spares.listable (h : Spares home d d') (hd : d.IsPlain) (hroot : d.reach root = .ok l)
    (ns : List String) (hnames : ∀ m ∈ n :: ns, IsName m)
    (hlen : (n :: ns ++ l).length < home.length)
    (hlisted : d.isDirectory (root.below (n :: ns)) = true → d.Listable (root.below (n :: ns)))
    (hdir : d'.isDirectory (root.below (n :: ns)) = true) :
    d'.Listable (root.below (n :: ns)) := by
  have hn := hnames n List.mem_cons_self
  obtain ⟨hf, k, hk⟩ := (isDirectory_join_iff h.plain.linkFree (root.below ns) hn).mp hdir
  obtain rfl := reach_below (reach_mono h.keeps hroot) hnames hk
  have hlocate := locate_of_reach h.plain.linkFree hf hk
  rcases h.outside fun hin => Nat.not_le.mpr hlen hin.length_le with hsame | ⟨-, -, hnew⟩
  · obtain ⟨k, r, hk, hr, hread⟩ :=
      listable_iff.mp (hlisted (h.isDirectory_below hd hroot ns hnames hsame hdir))
    have hreach := reach_of_locate hd.linkFree hk hr
    obtain rfl := reach_below hroot hnames hreach
    exact listable_iff.mpr ⟨_, r, hlocate, hsame.trans hr, hread⟩
  · exact listable_iff.mpr ⟨_, _, hlocate, hnew, rfl⟩

/-- The places that other pairs of names lead to stay as they are, with all that is below them. -/
theorem Spares.beside_own (h : Spares (Layout.home l cluster id) d d') (hne : (g, n) ≠ own id)
    {m : Location} (hm : [n, g, Layout.currentName, cluster] ++ l <:+ m) :
    d'.entry? m = d.entry? m := by
  refine h.beside (by simp [Layout.home]) (fun heq => ?_) hm
  obtain ⟨hn, hrest⟩ := List.cons.inj heq
  exact hne (Prod.ext (List.cons.inj hrest).1 hn)

theorem isName_of_mem_beside (hcluster : IsName cluster) (hg : IsName g) (hn : IsName n) :
    ∀ m ∈ [n, g, Layout.currentName, cluster], IsName m := by
  simp only [List.forall_mem_cons]
  exact ⟨hn, hg, Layout.isName_currentName, hcluster, by simp⟩

/-- **The same pairs of names lead to directories**, apart from those of the container. -/
theorem Spares.isDirectory_iff (h : Spares (Layout.home l cluster id) d d') (hd : d.IsPlain)
    (hroot : d.reach root = .ok l) (hcluster : IsName cluster) (hg : IsName g) (hn : IsName n)
    (hne : (g, n) ≠ own id) :
    d'.isDirectory (Layout.currentDir root cluster / g / n) = true ↔
      d.isDirectory (Layout.currentDir root cluster / g / n) = true := by
  have hbefore := h.isDirectory_below hd hroot _ (isName_of_mem_beside hcluster hg hn)
    (h.beside_own hne (List.suffix_refl _))
  exact ⟨hbefore, isDirectory_join_mono hd.linkFree h.plain.linkFree h.keeps hn⟩

/-- What is there of the groups can still be listed. -/
theorem Spares.walkable (h : Spares (Layout.home l cluster id) d d') (hd : d.IsPlain)
    (hroot : d.reach root = .ok l) (hcluster : IsName cluster)
    (hw : d.Walkable (Layout.currentDir root cluster)) :
    d'.Walkable (Layout.currentDir root cluster) where
  self := h.listable hd hroot [cluster]
    (by simpa using ⟨Layout.isName_currentName, hcluster⟩) (by simp [Layout.home]) hw.self
  group := fun g hg => h.listable hd hroot [Layout.currentName, cluster]
    (by simpa using ⟨hg, Layout.isName_currentName, hcluster⟩) (by simp [Layout.home]) (hw.group g hg)

/-- **The walk is the same**, apart from the directory of the container. -/
theorem Spares.grouped (h : Spares (Layout.home l cluster id) d d') (hd : d.IsPlain)
    (hroot : d.reach root = .ok l) (hcluster : IsName cluster)
    (hw : d.Walkable (Layout.currentDir root cluster)) :
    (d'.view.grouped (Layout.currentDir root cluster)).filter (· ≠ own id) =
      (d.view.grouped (Layout.currentDir root cluster)).filter (· ≠ own id) := by
  have hascending := fun (d : Disk) (hd : d.IsPlain) =>
    (DiskView.grouped_ascending hd.tree.wellNamed (Layout.currentDir root cluster)).filter
      (· ≠ own id)
  refine (hascending d' h.plain).eq_of_mem_iff (hascending d hd) ?_
  rintro ⟨g, n⟩
  simp only [List.mem_filter, decide_eq_true_eq]
  refine and_congr_left fun hne => ?_
  rw [Layout.currentDir, mem_grouped_iff h.plain Layout.isName_currentName
      (h.walkable hd hroot hcluster hw), mem_grouped_iff hd Layout.isName_currentName hw]
  exact and_congr_right fun hg => and_congr_right fun hn =>
    h.isDirectory_iff hd hroot hcluster hg hn hne

/-- **Other containers are seen alike.** -/
theorem Spares.seenAlike (h : Spares (Layout.home l cluster id) d d') (hd : d.IsPlain)
    (hroot : d.reach root = .ok l) (hcluster : IsName cluster) (hg : IsName g) (hn : IsName n)
    (hne : (g, n) ≠ own id)
    (hdir : d.isDirectory (Layout.currentDir root cluster / g / n) = true) (m : ContainerId) :
    (ContainerPaths.ofDirectory (Layout.currentDir root cluster / g / n) m).SeenAlike
      d.view d'.view := by
  have hfrom : d.SameFrom d' (Layout.currentDir root cluster / g / n) := by
    obtain ⟨-, k, hk⟩ := (isDirectory_join_iff hd.linkFree _ hn).mp hdir
    refine ⟨(reach_mono h.keeps hk).trans hk.symm, fun {k' x} hk' hx => ?_⟩
    have hplace := reach_below hroot (isName_of_mem_beside hcluster hg hn) hk'
    rw [hplace] at hx
    exact h.beside_own hne hx
  have hinside := hfrom.join Layout.isName_metadata
  have hanswers := fun {name} (hname : IsName name) =>
    hinside.answers hd.linkFree h.plain.linkFree hname
  exact {
    metadata := (hfrom.answers hd.linkFree h.plain.linkFree Layout.isName_metadata).1
    descriptor := (hanswers (Layout.isName_descriptorName m)).2.1
    content := (hanswers (Layout.isName_descriptorName m)).2.2
    index := (hanswers (Layout.isName_indexName m)).2.1 }

/-- The root can still be listed. -/
theorem Spares.listable_root (h : Spares home d d') (hd : d.LinkFree)
    (hlist : d.Listable root) : d'.Listable root := by
  obtain ⟨k, r, hk, hr, hread⟩ := listable_iff.mp hlist
  have hreach := reach_mono h.keeps (reach_of_locate hd hk hr)
  exact listable_iff.mpr
    ⟨k, r, locate_of_reach h.plain.linkFree (fault?_of_locate hk) hreach, h.keeps _ _ hr, hread⟩

/-- **A volume without another cluster** has the one that the container is placed in. -/
theorem Spares.directoryNames_root (h : Spares (Layout.home l cluster id) d d') (hd : d.IsPlain)
    (hroot : d.reach root = .ok l) (hcluster : IsName cluster) (hlist : d.Listable root)
    (hclear : ∀ n ∈ d.view.directoryNames root, n = cluster)
    (hdir : d'.isDirectory (root / cluster) = true) :
    d'.view.directoryNames root = [cluster] := by
  refine (DiskView.directoryNames_ascending h.plain.tree.wellNamed root).eq_of_mem_iff
    (List.pairwise_singleton _ cluster) fun n => ?_
  rw [mem_directoryNames_iff h.plain (h.listable_root hd.linkFree hlist), List.mem_singleton]
  constructor
  · rintro ⟨hn, hdir'⟩
    by_contra hne
    have hsame : d'.entry? ([n] ++ l) = d.entry? ([n] ++ l) := by
      have hout : ¬ Layout.home l cluster id <:+ n :: l := fun hin => by
        have hlength := hin.length_le
        simp only [Layout.home, List.length_cons] at hlength
        omega
      rcases h.outside hout with hsame | ⟨hon, -⟩
      · exact hsame
      · have hcluster' : cluster :: l <:+ Layout.home l cluster id :=
          ⟨[ContainerId.text id, Layout.groupName id, Layout.currentName], rfl⟩
        exact absurd (List.cons.inj (eq_of_suffixes hon hcluster' rfl)).1 hne
    have hbefore := h.isDirectory_below hd hroot [] (by simpa using hn) hsame hdir'
    exact hne (hclear n ((mem_directoryNames_iff hd hlist).mpr ⟨hn, hbefore⟩))
  · rintro rfl
    exact ⟨hcluster, hdir⟩

end

end Placement

end StorageNode
