import StorageNode.Proofs.Recovery.Moves
import StorageNode.Proofs.Scan.Isolation

/-!
# What the catalog refers to

An entry of the catalog refers to a volume by its number and to a directory by its path. `Node.Refers` says
that both are right: the registry knows the volume, and the directory lies below the root of that volume,
where containers lie, and is named by the number of the entry.

`Node.reached_refers` says so of every node that a history leads to (`Node.Reached`). Roots are registered,
volumes fail, volumes are scanned one by one or all at once, in any order; the disk may be another one each
time, and the check may crash. What is kept is `Node.Intact`, and for a recovery under way also what its
workers have ahead (`Node.Recovering.Intact`).
-/

namespace StorageNode

open FilePath (IsName)

/-- **The directory of the container on a volume**: below the root there are the cluster, `current`, the
group, and a name that reads as the number. -/
structure Layout.Houses (root : FilePath) (id : ContainerId) (dir : FilePath) : Prop where
  below : ∃ cluster group name, IsName cluster ∧ IsName group ∧ IsName name ∧
    ContainerId.ofName? name = some id ∧ dir = root / cluster / currentName / group / name ∧
    dir.components = root.components ++ [.name cluster, .name currentName, .name group, .name name]

/-- A directory of a volume that is named by the number is that of the container. -/
theorem Layout.IsContainerDirectory.houses {root dir : FilePath} {id : ContainerId}
    (h : IsContainerDirectory root dir) (hid : Scan.containerId? dir = some id) :
    Houses root id dir := by
  obtain ⟨cluster, group, name, hcluster, hgroup, hname, rfl⟩ := h
  rw [Scan.containerId?_join _ hname] at hid
  refine ⟨cluster, group, name, hcluster, hgroup, hname, hid, rfl, ?_⟩
  simp [FilePath.components_join _ hname, FilePath.components_join _ hgroup,
    FilePath.components_join _ isName_currentName, FilePath.components_join _ hcluster]

namespace Node

open Recovering Scan

/-- **An entry of the catalog refers rightly**: the container has the number, it is on a volume that the
registry knows, and its paths are those of its directory there. -/
structure Refers (r : Registry) (id : ContainerId) (x : Container) : Prop where
  own : x.id = id
  volume : ∃ v, r.get? x.volume = some v ∧ v.id = x.volume ∧ Layout.Houses v.root id x.paths.container
  paths : x.paths = .ofDirectory x.paths.container id

/-- What is right stays right as long as volumes stay known. -/
theorem Refers.mono {r r' : Registry} {id : ContainerId} {x : Container} (h : Refers r id x)
    (hextends : r.Extends r') : Refers r' id x := by
  obtain ⟨v, hv, hid, hhouses⟩ := h.volume
  obtain ⟨v', hv', hid', hroot⟩ := hextends x.volume v hv
  exact ⟨h.own, ⟨v', hv', hid'.trans hid, hroot ▸ hhouses⟩, h.paths⟩

/-! ## Histories -/

/-- **The nodes that a history leads to.** The roots are those that have been registered, the last one
first. -/
inductive Reached : List FilePath → Node → Prop
  /-- A new node knows no volumes and no containers. -/
  | new : Reached [] {}
  | register {roots : List FilePath} {n : Node} (h : Reached roots n) (root : FilePath) :
      Reached (root :: roots) { n with registry := (n.registry.register root).2.1 }
  | fail {roots : List FilePath} {n : Node} (h : Reached roots n) (root : FilePath) :
      Reached roots { n with registry := (n.registry.fail root).1 }
  /-- A volume of the registry is scanned, whatever its state is, or was when it was looked up. -/
  | scan {roots : List FilePath} {n : Node} (h : Reached roots n) {view : DiskView}
      (hview : view.WellNamed) (check : StructureCheck) {u v : Volume} (hu : u ∈ n.registry.volumes)
      (hid : v.id = u.id) (hroot : v.root = u.root) :
      Reached roots ⟨(n.scan view check v).registry, (n.scan view check v).catalog⟩
  | run {roots : List FilePath} {n : Node} (h : Reached roots n) {view : DiskView}
      (hview : view.WellNamed) (check : StructureCheck) : Reached roots (n.run view check).2.1
  /-- The workers take their steps in any order, and may not have come to their ends. -/
  | interleaved {roots : List FilePath} {n : Node} (h : Reached roots n) {view : DiskView}
      (hview : view.WellNamed) {check : StructureCheck} {r : Recovering}
      (hr : Interleaving view check (start n) r) : Reached roots r.node

/-- **What a history keeps**: the registry is one that a node can have, and all entries of the catalog
refer rightly. -/
structure Intact (roots : List FilePath) (n : Node) : Prop where
  registry : n.registry.Reached roots
  refers : ∀ id x, n.catalog.get? id = some x → Refers n.registry id x

section

variable {roots : List FilePath} {n : Node}

/-- A registry with the volumes of before keeps the entries right. -/
theorem Intact.refers_of_extends (h : Intact roots n) {r : Registry} (hextends : n.registry.Extends r) :
    ∀ id x, n.catalog.get? id = some x → Refers r id x := fun id x hx => (h.refers id x hx).mono hextends

theorem Intact.register (h : Intact roots n) (root : FilePath) :
    Intact (root :: roots) { n with registry := (n.registry.register root).2.1 } where
  registry := h.registry.register root
  refers := h.refers_of_extends (Registry.extends_register n.registry root)

/-- Volumes that have failed are still known. -/
theorem Intact.extends_fail (h : Intact roots n) (root : FilePath) :
    n.registry.Extends (n.registry.fail root).1 := by
  rw [h.registry.orderly.fail_eq]
  exact Registry.extends_failing _ _

theorem Intact.fail (h : Intact roots n) (root : FilePath) :
    Intact roots { n with registry := (n.registry.fail root).1 } where
  registry := h.registry.fail root
  refers := h.refers_of_extends (h.extends_fail root)

end

/-! ## Recoveries under way -/

/-- What is ahead of a worker lies where the containers of its volume lie. -/
def Task.Ahead (v : Volume) : Task → Prop
  | .walking ahead _ => ∀ dir, .candidate dir ∈ ahead → Layout.IsContainerDirectory v.root dir
  | _ => True

section

variable {view : DiskView} {check : StructureCheck} {roots : List FilePath} {v : Volume} {n n' : Node}
  {t t' : Task}

/-- What is ahead after a step lies there, too. -/
theorem Task.Moves.ahead (hview : view.WellNamed) (h : Task.Moves (scanning view check v) n t t' n')
    (ht : t.Ahead v) : t'.Ahead v := by
  cases h with
  | fails | unlisted | ends | stopped | crashes => trivial
  | starts hcluster hstops =>
      intro dir hdir
      exact isContainerDirectory_of_mem_stops hview (cluster_eq_ok_iff.mp hcluster) hstops hdir
  | loads | passes => exact fun dir hdir => ht dir (List.mem_cons_of_mem _ hdir)

/-- What a step takes into the catalog refers rightly. -/
theorem refers_of_examine {dir : FilePath} {id : ContainerId} {x : Container}
    (hhome : Layout.IsContainerDirectory v.root dir) (hknows : n.registry.Knows v)
    (hid : containerId? dir = some id) (h : (scanning view check v).examine id dir = .loaded x) :
    Refers n.registry id x := by
  obtain ⟨u, hu, hunumber, huroot⟩ := hknows
  obtain ⟨rfl, hvolume⟩ := Loading.loaded_of_examine h
  have hhouses := hhome.houses hid
  obtain ⟨cluster, group, name, -, -, hname, rfl⟩ := hhome
  have hpaths := (Loading.passes_of_examine hname h).paths_eq
  have hnumber : x.volume = v.id := hvolume
  refine ⟨rfl, ⟨u, ?_, ?_, ?_⟩, ?_⟩
  · rw [hnumber]
    exact hu
  · rw [hnumber]
    exact hunumber
  · rw [hpaths, huroot]
    exact hhouses
  · rw [hpaths]
    rfl

/-- **A step keeps the node intact**, and volumes known. -/
theorem Intact.step (hmoves : Task.Moves (scanning view check v) n t t' n') (h : Intact roots n)
    (hknows : n.registry.Knows v) (ht : t.Ahead v) :
    Intact roots n' ∧ n.registry.Extends n'.registry := by
  cases hmoves with
  | fails => exact ⟨h.fail v.root, h.extends_fail v.root⟩
  | unlisted | starts | ends | passes | stopped | crashes => exact ⟨h, .refl _⟩
  | @loads dir id x _ _ _ hid hx hg =>
      have hrefers : Refers n.registry id x :=
        refers_of_examine (ht dir List.mem_cons_self) hknows hid hx
      refine ⟨⟨h.registry, fun m y hy => ?_⟩, .refl _⟩
      rw [hg.entries] at hy
      split at hy
      · next hm =>
          obtain rfl := Option.some.inj hy
          obtain rfl : m = id := hm.trans hrefers.own
          exact hrefers
      · exact h.refers m y hy

/-- **What is kept of a recovery under way**: the node is intact, and the workers are at home on volumes
that it knows. -/
structure Recovering.Intact (roots : List FilePath) (r : Recovering) : Prop where
  node : r.node.Intact roots
  workers : ∀ w ∈ r.workers, r.node.registry.Knows w.1 ∧ w.2.Ahead w.1

theorem Recovering.Intact.of_interleaving (hview : view.WellNamed) {r r' : Recovering}
    (h : r.Intact roots) (hr : Interleaving view check r r') : r'.Intact roots := by
  induction hr with
  | refl => exact h
  | tail _ hstep ih =>
      obtain ⟨before, behind, v, t, t', m, m', rfl, rfl, hmoves⟩ := hstep.moves
      obtain ⟨hknows, hahead⟩ := ih.workers (v, t) (by simp)
      obtain ⟨hintact, hextends⟩ := ih.node.step hmoves hknows hahead
      refine ⟨hintact, forall_workers ih.workers (fun hown => ?_) fun w _ hw => ?_⟩
      · exact ⟨hextends.knows hown.1, hmoves.ahead hview hown.2⟩
      · exact ⟨hextends.knows hw.1, hw.2⟩

/-- Workers that have not begun are at home on volumes that the node knows. -/
theorem Intact.recovering (h : Intact roots n) {vs : List Volume} (hvs : ∀ v ∈ vs, n.registry.Knows v) :
    Recovering.Intact roots ⟨n, vs.map (·, .ready)⟩ where
  node := h
  workers := by
    intro w hw
    obtain ⟨v, hv, rfl⟩ := List.mem_map.mp hw
    exact ⟨hvs v hv, trivial⟩

/-- The node knows the volumes of its registry. -/
theorem Intact.knows (h : Intact roots n) (hfew : FilePath.AtMost UInt32.size roots)
    (hv : v ∈ n.registry.volumes) : n.registry.Knows v :=
  h.registry.orderly.knows (h.registry.length_le hfew) hv

theorem Intact.interleaved (hview : view.WellNamed) (h : Intact roots n)
    (hfew : FilePath.AtMost UInt32.size roots) {r : Recovering}
    (hr : Interleaving view check (start n) r) : Intact roots r.node := by
  have hstart : Recovering.Intact roots (start n) :=
    h.recovering fun v hv => h.knows hfew (List.mem_filter.mp hv).1
  exact (hstart.of_interleaving hview hr).node

/-- A scan is a recovery with one worker. -/
theorem Intact.scan (hview : view.WellNamed) (h : Intact roots n) (hknows : n.registry.Knows v) :
    Intact roots ⟨(n.scan view check v).registry, (n.scan view check v).catalog⟩ := by
  have hone : Recovering.Intact roots ⟨n, [v].map (·, .ready)⟩ := h.recovering (by simpa using hknows)
  have hscan := @interleaving_finish view check [] [] v .ready n
  exact (hone.of_interleaving hview hscan).node

end

/-- **What a history keeps.** -/
theorem Reached.intact {roots : List FilePath} {n : Node} (h : Reached roots n)
    (hfew : FilePath.AtMost UInt32.size roots) : Intact roots n := by
  induction h with
  | new =>
      refine ⟨.empty, fun id x hx => ?_⟩
      cases hx
  | register _ root ih => exact (ih (hfew.mono (by simp))).register root
  | fail _ root ih => exact (ih hfew).fail root
  | scan _ hview check hu hid hroot ih =>
      obtain ⟨k, hk, hknumber, hkroot⟩ := (ih hfew).knows hfew hu
      exact (ih hfew).scan hview ⟨k, hid ▸ hk, hknumber.trans hid.symm, hkroot.trans hroot.symm⟩
  | run _ hview check ih =>
      obtain ⟨r, hr, -, hnode, -⟩ := exists_run _ _ check
      rw [← hnode]
      exact (ih hfew).interleaved hview hfew hr
  | interleaved _ hview hr ih => exact (ih hfew).interleaved hview hfew hr

/-! ## The theorem -/

/-- **Every entry of the catalog refers rightly**, whatever has happened to the node, as long as no more
roots that are different have been registered than there are numbers of volumes. -/
theorem reached_refers {roots : List FilePath} {n : Node} (h : Reached roots n)
    (hfew : FilePath.AtMost UInt32.size roots) {id : ContainerId} {x : Container}
    (hx : n.catalog.get? id = some x) : Refers n.registry id x :=
  (h.intact hfew).refers id x hx

/-- Container 5 of a volume that is scanned, fails, and gets a neighbour. -/
theorem reached_refers_trio :
    let scanned : Node := { registry := (Registry.empty.register (trioRoot "u")).2.1 }
    let recovered : Node := (scanned.run trio.view .indexFile).2.1
    let failed : Node := { recovered with registry := (recovered.registry.fail (trioRoot "u")).1 }
    let n : Node := { failed with registry := (failed.registry.register (trioRoot "w")).2.1 }
    Reached [trioRoot "w", trioRoot "u"] n ∧
      FilePath.AtMost UInt32.size [trioRoot "w", trioRoot "u"] ∧
      ∃ x, n.catalog.get? 5 = some x ∧ Refers n.registry 5 x := by
  intro scanned recovered failed n
  have hview := isTree_trio.wellNamed
  have hrecovered : Reached [trioRoot "u"] recovered :=
    (Reached.new.register (trioRoot "u")).run hview .indexFile
  have hfailed : Reached [trioRoot "u"] failed := hrecovered.fail (trioRoot "u")
  have hreached : Reached [trioRoot "w", trioRoot "u"] n := hfailed.register (trioRoot "w")
  have hfew : FilePath.AtMost UInt32.size [trioRoot "w", trioRoot "u"] := .of_length_le (by decide)
  obtain ⟨x, hget⟩ : ∃ x, recovered.catalog.get? 5 = some x := by
    have hhealthy : scanned.registry.healthy = [trioVolume 0 "u"] := by decide +kernel
    have hrun := run_node scanned trio.view .indexFile
    rw [hhealthy] at hrun
    obtain ⟨_, hsound⟩ := exists_sound_trio 0 (.inl rfl)
    obtain ⟨reports, -, hsettled⟩ := exists_settled hview StructureCheck.neverCrashes_indexFile
      [trioVolume 0 "u"] scanned
    obtain ⟨x, hx, -⟩ := (hsettled 5).exists_of_head rfl hsound
    rw [← hrun] at hx
    exact ⟨x, hx⟩
  have hkeeps : ∀ (m : Node) (r : Registry), ({ m with registry := r } : Node).catalog = m.catalog :=
    fun _ _ => rfl
  have hcatalog : n.catalog = recovered.catalog := (hkeeps failed _).trans (hkeeps recovered _)
  have hentry : n.catalog.get? 5 = some x := by
    rw [hcatalog]
    exact hget
  exact ⟨hreached, hfew, x, hentry, reached_refers hreached hfew hentry⟩

end Node

end StorageNode
