import Mathlib.Data.List.Nodup
import Mathlib.Data.List.Pairwise
import Mathlib.Data.List.Perm.Subperm
import StorageNode.Registry

/-!
# Volumes and their numbers

A registry is *in order* (`Registry.Orderly`) if no two of its volumes have the same root and every volume
has the number of its place. What a node does to its registry, registering roots and failing volumes, keeps
it so (`Registry.Reached.orderly`), and a volume that is known stays known under its number, with its root
in its spelling (`Registry.Extends`). Numbers have 32 bits, so a number leads back to its volume only as
long as there are not more volumes than numbers (`Registry.Orderly.get?_id`).

A failure concerns the one volume with the root. In a registry that is in order it is the same as failing
all volumes with the root (`Registry.Orderly.fail_eq`), which is how several failures are put together.
-/

namespace StorageNode

/-! ## Roots that are different -/

namespace FilePath

theorem same_iff {p q : FilePath} : p.same q = true ↔ p.components = q.components :=
  decide_eq_true_iff

theorem same_self (p : FilePath) : p.same p = true := same_iff.mpr rfl

theorem same_comm (p q : FilePath) : p.same q = q.same p := by
  rw [Bool.eq_iff_iff, same_iff, same_iff, eq_comm]

/-- No two of the paths are the same by their components. -/
def Distinct (ps : List FilePath) : Prop := ps.Pairwise fun p q => p.same q = false

/-- There are at most so many different paths among these. -/
def AtMost (k : Nat) (ps : List FilePath) : Prop := ∀ qs ⊆ ps, Distinct qs → qs.length ≤ k

theorem AtMost.mono {k : Nat} {ps qs : List FilePath} (h : AtMost k qs) (hsub : ps ⊆ qs) :
    AtMost k ps := fun rs hrs => h rs (List.Subset.trans hrs hsub)

/-- Different paths are listed once. -/
theorem Distinct.nodup {ps : List FilePath} (h : Distinct ps) : ps.Nodup :=
  h.imp fun {p q} hpq heq => by simp [heq, same_self] at hpq

/-- Not more paths are different than there are. -/
theorem AtMost.of_length_le {k : Nat} {ps : List FilePath} (h : ps.length ≤ k) : AtMost k ps :=
  fun _ hsub hqs => Nat.le_trans (List.subperm_of_subset hqs.nodup hsub).length_le h

end FilePath

/-! ## Volumes that fail -/

/-- The volume, which fails if its root is among the given ones. -/
def Volume.failing (p : FilePath → Bool) (v : Volume) : Volume :=
  if p v.root then { v with state := .failed } else v

section

variable (p q : FilePath → Bool) (v : Volume)

@[simp] theorem Volume.failing_id : (v.failing p).id = v.id := by
  unfold Volume.failing
  split <;> rfl

@[simp] theorem Volume.failing_root : (v.failing p).root = v.root := by
  unfold Volume.failing
  split <;> rfl

/-- What has failed stays failed. -/
theorem Volume.isFailed_failing : (v.failing p).isFailed = (v.isFailed || p v.root) := by
  unfold Volume.failing
  cases h : p v.root <;> simp [Volume.isFailed]

theorem Volume.failing_failing :
    (v.failing p).failing q = v.failing fun root => p root || q root := by
  cases hp : p v.root <;> cases hq : q v.root <;> simp [Volume.failing, hp, hq]

/-- A volume has failed, or is healthy. -/
theorem Volume.isHealthy_eq : v.isHealthy = !v.isFailed := by
  cases h : v.state <;> simp [Volume.isHealthy, Volume.isFailed, h]

end

namespace Registry

/-- The registry in which the volumes with the given roots fail. -/
def failing (p : FilePath → Bool) (r : Registry) : Registry := ⟨r.volumes.map (·.failing p)⟩

theorem failing_failing (p q : FilePath → Bool) (r : Registry) :
    (r.failing p).failing q = r.failing fun root => p root || q root := by
  simp [failing, Volume.failing_failing]

/-- If none of them fails, the registry stays. -/
theorem failing_none {p : FilePath → Bool} (h : ∀ root, p root = false) (r : Registry) :
    r.failing p = r := by
  have hv : ∀ v ∈ r.volumes, v.failing p = v := fun v _ => by simp [Volume.failing, h]
  rw [failing, List.map_congr_left hv, List.map_id']

/-! ## One failure -/

/-- Marking a volume that has failed already changes nothing. -/
theorem markFailed_of_find {root : FilePath} {vs : List Volume}
    (h : ∀ v, vs.find? (·.root.same root) = some v → v.isFailed = true) : markFailed root vs = vs := by
  induction vs with
  | nil => rfl
  | cons v vs ih =>
      cases hv : v.root.same root with
      | true =>
          have hfailed : v.state = .failed := by
            simpa [Volume.isFailed] using h v (List.find?_cons_of_pos hv)
          rw [markFailed, hv, if_pos rfl, ← hfailed]
      | false =>
          rw [List.find?_cons_of_neg (by simp [hv])] at h
          rw [markFailed, hv, if_neg Bool.false_ne_true, ih h]

/-- A failure marks the volume with the root. -/
theorem fail_eq (r : Registry) (root : FilePath) :
    (r.fail root).1 = ⟨markFailed root r.volumes⟩ := by
  have hsame : (∀ v, r.find? root = some v → v.isFailed = true) →
      r = ⟨markFailed root r.volumes⟩ := fun h => by rw [markFailed_of_find h]
  unfold fail
  split
  · next hnone => exact hsame (by simp [hnone])
  · next v hv =>
      split
      · next hfailed =>
          refine hsame fun w hw => ?_
          rwa [← Option.some.inj (hv.symm.trans hw)]
      · rfl

theorem markFailed_markFailed (a b : FilePath) (vs : List Volume) :
    markFailed a (markFailed b vs) = markFailed b (markFailed a vs) := by
  induction vs with
  | nil => rfl
  | cons v vs ih =>
      cases ha : v.root.same a <;> cases hb : v.root.same b <;> simp [markFailed, ha, hb, ih]

/-- **Failures may come in either order.** -/
theorem fail_fail (r : Registry) (a b : FilePath) :
    ((r.fail a).1.fail b).1 = ((r.fail b).1.fail a).1 := by
  simp only [fail_eq, markFailed_markFailed]

/-- The registry after the failures of the volumes with some roots. -/
def failAll (r : Registry) (roots : List FilePath) : Registry :=
  roots.foldl (fun r root => (r.fail root).1) r

theorem failAll_append (r : Registry) (roots more : List FilePath) :
    r.failAll (roots ++ more) = (r.failAll roots).failAll more := List.foldl_append

theorem failAll_comm (r : Registry) (roots more : List FilePath) :
    (r.failAll roots).failAll more = (r.failAll more).failAll roots := by
  rw [← failAll_append, ← failAll_append]
  exact List.perm_append_comm.foldl_eq' (fun a _ b _ r => fail_fail r a b) r

/-- Where no two roots are the same, the first volume with a root is the only one. -/
theorem markFailed_of_distinct {root : FilePath} {vs : List Volume}
    (h : FilePath.Distinct (vs.map (·.root))) :
    markFailed root vs = vs.map (·.failing (·.same root)) := by
  induction vs with
  | nil => rfl
  | cons v vs ih =>
      obtain ⟨hv, hvs⟩ := List.pairwise_cons.mp h
      cases hroot : v.root.same root with
      | false => simp [markFailed, hroot, Volume.failing, ih hvs]
      | true =>
          have hothers : ∀ u ∈ vs, u.failing (·.same root) = u := by
            intro u hu
            have hsame : u.root.same root = false := by
              have hvu := hv u.root (List.mem_map_of_mem hu)
              rw [← Bool.not_eq_true, FilePath.same_iff] at hvu ⊢
              exact fun heq => hvu ((FilePath.same_iff.mp hroot).trans heq.symm)
            simp [Volume.failing, hsame]
          rw [List.map_cons, List.map_congr_left hothers, List.map_id']
          simp [markFailed, hroot, Volume.failing]

/-! ## Registries in order -/

/-- **A registry in order**: no two volumes have the same root, and every volume has the number of its
place. -/
structure Orderly (r : Registry) : Prop where
  distinct : FilePath.Distinct (r.volumes.map (·.root))
  numbered : ∀ {i : Nat} {v : Volume}, r.volumes[i]? = some v → v.id = UInt32.ofNat i

section

variable {r : Registry} {root : FilePath}

theorem orderly_empty : Orderly .empty where
  distinct := .nil
  numbered h := by simp [empty] at h

/-- In a registry in order, a failure concerns all volumes with the root. -/
theorem Orderly.fail_eq (h : r.Orderly) (root : FilePath) :
    (r.fail root).1 = r.failing (·.same root) := by
  rw [Registry.fail_eq, markFailed_of_distinct h.distinct, failing]

theorem Orderly.failing (h : r.Orderly) (p : FilePath → Bool) : (r.failing p).Orderly where
  distinct := by simpa [Registry.failing, Function.comp_def] using h.distinct
  numbered {i v} hv := by
    obtain ⟨u, hu, rfl⟩ : ∃ u, r.volumes[i]? = some u ∧ u.failing p = v := by
      simpa [Registry.failing] using hv
    rw [Volume.failing_id]
    exact h.numbered hu

/-- Volumes of a registry in order that have the same root are one volume. -/
theorem Orderly.eq_of_root (h : r.Orderly) {u v : Volume} (hu : u ∈ r.volumes) (hv : v ∈ r.volumes)
    (hsame : u.root.same v.root = true) : u = v := by
  have hdistinct : r.volumes.Pairwise fun u v => u.root.same v.root = false :=
    List.pairwise_map.mp h.distinct
  have : Std.Symm fun u v : Volume => u.root.same v.root = false :=
    ⟨fun u v huv => (FilePath.same_comm _ _).trans huv⟩
  by_contra hne
  exact absurd (hsame.symm.trans (hdistinct.forall hu hv hne)) (by simp)

/-- No volume of a registry in order is there twice. -/
theorem Orderly.nodup (h : r.Orderly) : r.volumes.Nodup := List.Nodup.of_map _ h.distinct.nodup

theorem register_of_some {v : Volume} (h : r.find? root = some v) :
    (r.register root).2.1 = r := by
  rw [register, h]

theorem register_of_none (h : r.find? root = none) :
    (r.register root).2.1 = ⟨r.volumes ++ [⟨r.nextId, root, .healthy⟩]⟩ := by
  rw [register, h]

theorem Orderly.register (h : r.Orderly) (root : FilePath) : (r.register root).2.1.Orderly := by
  cases hfind : r.find? root with
  | some v =>
      rw [register_of_some hfind]
      exact h
  | none =>
      have hnew : ∀ p ∈ r.volumes.map (·.root), ∀ q ∈ [root], p.same q = false := by
        intro p hp q hq
        obtain ⟨v, hv, rfl⟩ := List.mem_map.mp hp
        obtain rfl := List.mem_singleton.mp hq
        simpa using List.find?_eq_none.mp hfind v hv
      rw [register_of_none hfind]
      refine ⟨?_, fun {i v} hv => ?_⟩
      · rw [List.map_append]
        exact List.pairwise_append.mpr ⟨h.distinct, List.pairwise_singleton _ _, hnew⟩
      · rcases Nat.lt_or_ge i r.volumes.length with hi | hi
        · exact h.numbered ((List.getElem?_append_left hi).symm.trans hv)
        · have hlast := (List.getElem?_append_right hi).symm.trans hv
          obtain ⟨hi', rfl⟩ := List.getElem?_eq_some_iff.mp hlast
          obtain rfl : i = r.volumes.length := by
            rw [List.length_singleton] at hi'
            omega
          simp [nextId]

/-! ## From a number to its volume -/

/-- With no more volumes than numbers, every volume is found under its number. -/
theorem Orderly.get?_id (h : r.Orderly) (hfew : r.volumes.length ≤ UInt32.size) {v : Volume}
    (hv : v ∈ r.volumes) : r.get? v.id = some v := by
  obtain ⟨i, hi, hvi⟩ := List.mem_iff_getElem.mp hv
  have hplace : r.volumes[i]? = some v := List.getElem?_eq_some_iff.mpr ⟨hi, hvi⟩
  rw [get?, h.numbered hplace, UInt32.toNat_ofNat_of_lt' (by omega)]
  exact hplace

/-- With no more volumes than numbers, no number is given twice. -/
theorem Orderly.nodup_ids (h : r.Orderly) (hfew : r.volumes.length ≤ UInt32.size) :
    r.volumes.Pairwise fun u v => u.id ≠ v.id := by
  refine h.nodup.imp_of_mem fun {u v} hu hv hne heq => hne ?_
  exact Option.some.inj ((h.get?_id hfew hu).symm.trans (heq ▸ h.get?_id hfew hv))

end

/-! ## What stays known -/

/-- Every volume that the first registry knows is known to the second one under the same number, with the
same root. -/
def Extends (r r' : Registry) : Prop :=
  ∀ id v, r.get? id = some v → ∃ v', r'.get? id = some v' ∧ v'.id = v.id ∧ v'.root = v.root

theorem Extends.refl (r : Registry) : Extends r r := fun _ v h => ⟨v, h, rfl, rfl⟩

theorem extends_failing (p : FilePath → Bool) (r : Registry) : Extends r (r.failing p) := by
  intro id v h
  refine ⟨v.failing p, ?_, Volume.failing_id p v, Volume.failing_root p v⟩
  rw [get?] at h
  rw [get?, failing, List.getElem?_map, h, Option.map_some]

theorem extends_register (r : Registry) (root : FilePath) : Extends r (r.register root).2.1 := by
  intro id v h
  refine ⟨v, ?_, rfl, rfl⟩
  cases hfind : r.find? root with
  | some u =>
      rw [register_of_some hfind]
      exact h
  | none =>
      rw [register_of_none hfind, get?]
      obtain ⟨hlt, -⟩ := List.getElem?_eq_some_iff.mp h
      exact (List.getElem?_append_left hlt).trans h

/-- The volume is known under its number, with its root. -/
def Knows (r : Registry) (v : Volume) : Prop := ∃ u, r.get? v.id = some u ∧ u.id = v.id ∧ u.root = v.root

theorem Extends.knows {r r' : Registry} {v : Volume} (h : Extends r r') (hv : r.Knows v) :
    r'.Knows v := by
  obtain ⟨u, hu, hid, hroot⟩ := hv
  obtain ⟨u', hu', hid', hroot'⟩ := h v.id u hu
  exact ⟨u', hu', hid'.trans hid, hroot'.trans hroot⟩

/-- With no more volumes than numbers, the volumes are known. -/
theorem Orderly.knows {r : Registry} (h : r.Orderly) (hfew : r.volumes.length ≤ UInt32.size) {v : Volume}
    (hv : v ∈ r.volumes) : r.Knows v := ⟨v, h.get?_id hfew hv, rfl, rfl⟩

/-! ## Histories -/

/-- **The registries that a node can have**: roots are registered, volumes fail, and nothing else happens.
The roots are those that have been registered, the last one first. -/
inductive Reached : List FilePath → Registry → Prop
  | empty : Reached [] .empty
  | register {roots : List FilePath} {r : Registry} (h : Reached roots r) (root : FilePath) :
      Reached (root :: roots) (r.register root).2.1
  | fail {roots : List FilePath} {r : Registry} (h : Reached roots r) (root : FilePath) :
      Reached roots (r.fail root).1

namespace Reached

variable {roots : List FilePath} {r : Registry}

/-- **Every registry of a node is in order.** -/
theorem orderly (h : Reached roots r) : r.Orderly := by
  induction h with
  | empty => exact orderly_empty
  | register _ root ih => exact ih.register root
  | fail _ root ih =>
      rw [ih.fail_eq]
      exact ih.failing _

/-- The roots of the volumes have been registered. -/
theorem roots_subset (h : Reached roots r) : r.volumes.map (·.root) ⊆ roots := by
  induction h with
  | empty => simp [Registry.empty]
  | @register roots r h root ih =>
      cases hfind : r.find? root with
      | some v =>
          rw [register_of_some hfind]
          exact List.subset_cons_of_subset root ih
      | none =>
          rw [register_of_none hfind, List.map_append]
          exact List.append_subset.mpr ⟨List.subset_cons_of_subset root ih, by simp⟩
  | fail h root ih =>
      rw [h.orderly.fail_eq]
      simpa [failing, Function.comp_def] using ih

/-- There are as many volumes as different roots, at most. -/
theorem length_le (h : Reached roots r) {k : Nat} (hk : FilePath.AtMost k roots) :
    r.volumes.length ≤ k := by
  simpa using hk _ h.roots_subset h.orderly.distinct

/-- Registering several roots goes on with the history. -/
theorem registerAll (h : Reached roots r) (more : List FilePath) :
    Reached (more.reverse ++ roots) (r.registerAll more).1 := by
  induction more generalizing roots r with
  | nil => exact h
  | cons root more ih =>
      rw [List.reverse_cons, List.append_assoc]
      exact ih (h.register root)

end Reached

/-- Registering fails no volume. -/
theorem isHealthy_registerAll {r : Registry} (h : ∀ v ∈ r.volumes, v.isHealthy = true)
    (roots : List FilePath) : ∀ v ∈ (r.registerAll roots).1.volumes, v.isHealthy = true := by
  induction roots generalizing r with
  | nil => exact h
  | cons root roots ih =>
      have hfirst : ∀ v ∈ (r.register root).2.1.volumes, v.isHealthy = true := by
        cases hfind : r.find? root with
        | some v =>
            rw [register_of_some hfind]
            exact h
        | none =>
            rw [register_of_none hfind]
            exact List.forall_mem_append.mpr ⟨h, List.forall_mem_singleton.mpr rfl⟩
      exact ih hfirst

end Registry

end StorageNode
