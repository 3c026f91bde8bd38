import StorageNode.Proofs.Registry

/-!
# What is known after any calls

A registry is used in two ways: a root is registered, or the volume with a root fails (`Registry.Call`).
After any calls, the roots of the volumes are the registered ones without those that were known already,
in the order of their registration, and each as it was spelled first (`Registry.roots_after`).

Everything else that holds of the volumes is in `Registry.Accurate`. All of it comes from the registry
being in order, which every call keeps. Only what goes from a number to its volume needs that there are not
more volumes than numbers. From one call to the next the volumes keep their places, numbers and roots,
and a failure stays (`Registry.Keeps`).
-/

namespace StorageNode

/-- The paths without those that are the same as one before them. -/
def FilePath.firsts (ps : List FilePath) : List FilePath := ps.eraseDupsBy FilePath.same

namespace Registry

/-! ## Calls -/

/-- **A call to a registry.** -/
inductive Call
  | register (root : FilePath)
  | fail (root : FilePath)

namespace Call

/-- The root that a call registers. -/
def registered? : Call → Option FilePath
  | .register root => some root
  | .fail _ => none

/-- The registry after a call. -/
def run (r : Registry) : Call → Registry
  | .register root => (r.register root).2.1
  | .fail root => (r.fail root).1

end Call

/-- The registry after some calls, one after another. -/
def after (r : Registry) (calls : List Call) : Registry := calls.foldl Call.run r

theorem after_append (r : Registry) (calls more : List Call) :
    r.after (calls ++ more) = (r.after calls).after more := List.foldl_append

/-- A call that fails a root changes the states of the volumes with it. -/
theorem Orderly.after_fail {r : Registry} (h : r.Orderly) (root : FilePath) (calls : List Call) :
    r.after (.fail root :: calls) = (r.failing (·.same root)).after calls :=
  congrArg (·.after calls) (h.fail_eq root)

/-- Calls go on with the history. -/
theorem Reached.after {roots : List FilePath} {r : Registry} (h : Reached roots r)
    (calls : List Call) :
    Reached ((calls.filterMap Call.registered?).reverse ++ roots) (r.after calls) := by
  induction calls generalizing roots r with
  | nil => exact h
  | cons call calls ih =>
      cases call with
      | register root =>
          rw [List.filterMap_cons_some (f := Call.registered?) rfl, List.reverse_cons,
            List.append_assoc]
          exact ih (h.register root)
      | fail root => exact ih (h.fail root)

/-! ## The roots of the volumes -/

section

variable {r : Registry} {root : FilePath}

/-- The root is the one of no volume. -/
def isNew (r : Registry) (root : FilePath) : Bool := r.volumes.all fun v => !v.root.same root

theorem isNew_iff : r.isNew root = true ↔ r.find? root = none := by
  simp [isNew, find?, List.find?_eq_none]

/-- A root that is not new changes nothing when it is registered. -/
theorem register_of_known (hknown : r.isNew root = false) : (r.register root).2.1 = r := by
  cases hfind : r.find? root with
  | none => exact absurd (isNew_iff.mpr hfind) (by simp [hknown])
  | some v => exact register_of_some hfind

/-- After a registration, a root is new if it was new before and is not the registered one. -/
theorem isNew_register_of_new (hnew : r.isNew root = true) (p : FilePath) :
    (r.register root).2.1.isNew p = (decide (p.same root = false) && r.isNew p) := by
  rw [register_of_none (isNew_iff.mp hnew), isNew, List.all_append, Bool.and_comm]
  simp [isNew, FilePath.same_comm root p]

theorem roots_failing (p : FilePath → Bool) (r : Registry) :
    (r.failing p).volumes.map (·.root) = r.volumes.map (·.root) := by
  simp [failing, Function.comp_def]

theorem isNew_failing (p : FilePath → Bool) (r : Registry) : (r.failing p).isNew = r.isNew := by
  funext root
  simp [isNew, failing, Function.comp_def]

/-- **The volumes are the registered roots**, in the order in which they came first, and spelled as they
were then. -/
theorem Orderly.roots_after (h : r.Orderly) (calls : List Call) :
    (r.after calls).volumes.map (·.root) =
      r.volumes.map (·.root) ++
        FilePath.firsts ((calls.filterMap Call.registered?).filter r.isNew) := by
  induction calls generalizing r with
  | nil => simp [after, FilePath.firsts, List.eraseDupsBy, List.eraseDupsBy.loop]
  | cons call calls ih =>
      cases call with
      | fail root =>
          rw [List.filterMap_cons_none rfl, h.after_fail, ih (h.failing _), roots_failing,
            isNew_failing]
      | register root =>
          rw [List.filterMap_cons_some (f := Call.registered?) rfl]
          cases hnew : r.isNew root with
          | false =>
              have hsame : r.after (.register root :: calls) = r.after calls :=
                congrArg (·.after calls) (register_of_known hnew)
              rw [List.filter_cons_of_neg (by simp [hnew]), hsame]
              exact ih h
          | true =>
              -- what is new afterwards is what the first of the roots leaves of the others
              have hlater : (calls.filterMap Call.registered?).filter (r.register root).2.1.isNew =
                  ((calls.filterMap Call.registered?).filter r.isNew).filter
                    fun p => decide (p.same root = false) := by
                rw [List.filter_filter]
                exact List.filter_congr fun p _ => isNew_register_of_new hnew p
              rw [List.filter_cons_of_pos hnew, FilePath.firsts, List.eraseDupsBy_cons]
              refine (ih (h.register root)).trans ?_
              rw [hlater, register_of_none (isNew_iff.mp hnew), List.map_append, List.append_assoc]
              rfl

/-- From the beginning, every root is new. -/
theorem roots_after (calls : List Call) :
    (empty.after calls).volumes.map (·.root) =
      FilePath.firsts (calls.filterMap Call.registered?) := by
  have hall := List.filter_eq_self.mpr fun p (_ : p ∈ calls.filterMap Call.registered?) =>
    show empty.isNew p = true from rfl
  rw [orderly_empty.roots_after, hall]
  rfl

end

/-! ## What holds of the volumes -/

/-- **A registry that tells the truth** about its volumes, by root, by number, and by their states. -/
structure Accurate (r : Registry) : Prop where
  /-- Every volume has the number of its place. -/
  numbered : ∀ (i : Nat) (v : Volume), r.volumes[i]? = some v → v.id.toNat = i
  /-- No two volumes have the same root. -/
  distinct : FilePath.Distinct (r.volumes.map (·.root))
  /-- A number leads to the volume that has it. -/
  get?_iff : ∀ (id : VolumeId) (v : Volume), r.get? id = some v ↔ v ∈ r.volumes ∧ v.id = id
  /-- Whoever registers a root that is known is told its volume, and nothing changes. -/
  register_known : ∀ v ∈ r.volumes, ∀ root, v.root.same root = true →
    r.register root = (v, r, [])
  /-- A failure concerns the volume with the root, of which there is at most one. -/
  fail_volumes : ∀ root, (r.fail root).1.volumes =
    r.volumes.map fun v => if v.root.same root then { v with state := .failed } else v
  /-- The volumes that can be used are listed in order, -/
  healthy_sublist : r.healthy.Sublist r.volumes
  /-- and so are the roots of those that have failed. -/
  failedRoots_sublist : r.failedRoots.Sublist (r.volumes.map (·.root))
  /-- A volume is in the list of its state, -/
  mem_healthy : ∀ v ∈ r.volumes, v ∈ r.healthy ↔ v.state = .healthy
  mem_failedRoots : ∀ v ∈ r.volumes, v.root ∈ r.failedRoots ↔ v.state = .failed
  /-- and both lists have every volume once. -/
  listed_once : (r.healthy.map (·.root) ++ r.failedRoots).Perm (r.volumes.map (·.root))

section

variable {r : Registry}

/-- A volume with the root is the one that is found. -/
theorem Orderly.find?_eq (h : r.Orderly) {v : Volume} (hv : v ∈ r.volumes) {root : FilePath}
    (hsame : v.root.same root = true) : r.find? root = some v := by
  cases hfind : r.find? root with
  | none => exact absurd hsame (List.find?_eq_none.mp hfind v hv)
  | some u =>
      have huv : u.root.same v.root = true := by
        have hu := List.find?_some (p := fun u : Volume => u.root.same root) hfind
        rw [FilePath.same_iff] at hu hsame ⊢
        exact hu.trans hsame.symm
      rw [h.eq_of_root (List.mem_of_find?_eq_some hfind) hv huv]

/-- The lists by state have every volume once. -/
theorem listed_perm (r : Registry) :
    (r.healthy.map (·.root) ++ r.failedRoots).Perm (r.volumes.map (·.root)) := by
  rw [healthy, failedRoots, ← List.map_append]
  have hfailed : r.volumes.filter (·.isFailed) = r.volumes.filter fun v => !v.isHealthy := by
    simp [Volume.isHealthy_eq]
  rw [hfailed]
  exact (List.filter_append_perm _ _).map _

theorem Orderly.mem_failedRoots (h : r.Orderly) {v : Volume} (hv : v ∈ r.volumes) :
    v.root ∈ r.failedRoots ↔ v.state = .failed := by
  refine ⟨fun hmem => ?_, fun hstate => ?_⟩
  · obtain ⟨u, hu, hroot⟩ := List.mem_map.mp hmem
    obtain ⟨hu, hfailed⟩ := List.mem_filter.mp hu
    obtain rfl := h.eq_of_root hu hv (hroot ▸ FilePath.same_self _)
    simpa [Volume.isFailed] using hfailed
  · exact List.mem_map_of_mem (List.mem_filter.mpr ⟨hv, by simp [Volume.isFailed, hstate]⟩)

/-- **A registry in order is accurate**, with no more volumes than numbers. -/
theorem Orderly.accurate (h : r.Orderly) (hfew : r.volumes.length ≤ UInt32.size) :
    r.Accurate where
  numbered i v hv := by
    obtain ⟨hi, -⟩ := List.getElem?_eq_some_iff.mp hv
    rw [h.numbered hv, UInt32.toNat_ofNat_of_lt' (by omega)]
  distinct := h.distinct
  get?_iff id v := by
    refine ⟨fun hget => ?_, fun ⟨hv, hid⟩ => hid ▸ h.get?_id hfew hv⟩
    obtain ⟨hi, rfl⟩ := List.getElem?_eq_some_iff.mp hget
    exact ⟨List.getElem_mem hi, (h.numbered hget).trans (UInt32.ofNat_toNat)⟩
  register_known v hv root hsame := by rw [Registry.register, h.find?_eq hv hsame]
  fail_volumes root := by
    rw [h.fail_eq]
    rfl
  healthy_sublist := List.filter_sublist
  failedRoots_sublist := List.filter_sublist.map _
  mem_healthy v hv := by simp [healthy, hv, Volume.isHealthy]
  mem_failedRoots _ hv := h.mem_failedRoots hv
  listed_once := r.listed_perm

end

/-! ## What calls keep -/

/-- Every volume keeps its place, its number and its root, and what has failed stays failed. -/
def Keeps (r r' : Registry) : Prop :=
  ∀ (i : Nat) (v : Volume), r.volumes[i]? = some v →
    ∃ v', r'.volumes[i]? = some v' ∧ v'.id = v.id ∧ v'.root = v.root ∧
      (v.state = .failed → v'.state = .failed)

section

variable {r r' r'' : Registry}

theorem Keeps.refl (r : Registry) : Keeps r r := fun _ v h => ⟨v, h, rfl, rfl, id⟩

theorem Keeps.trans (h : Keeps r r') (h' : Keeps r' r'') : Keeps r r'' := by
  intro i v hv
  obtain ⟨v', hv', hid, hroot, hfailed⟩ := h i v hv
  obtain ⟨v'', hv'', hid', hroot', hfailed'⟩ := h' i v' hv'
  exact ⟨v'', hv'', hid'.trans hid, hroot'.trans hroot, hfailed' ∘ hfailed⟩

theorem keeps_register (r : Registry) (root : FilePath) : Keeps r (r.register root).2.1 := by
  cases hfind : r.find? root with
  | some v =>
      rw [register_of_some hfind]
      exact .refl r
  | none =>
      intro i v hv
      obtain ⟨hi, -⟩ := List.getElem?_eq_some_iff.mp hv
      rw [register_of_none hfind]
      exact ⟨v, (List.getElem?_append_left hi).trans hv, rfl, rfl, id⟩

theorem keeps_failing (p : FilePath → Bool) (r : Registry) : Keeps r (r.failing p) := by
  intro i v hv
  refine ⟨v.failing p, ?_, Volume.failing_id p v, Volume.failing_root p v, fun hfailed => ?_⟩
  · rw [failing, List.getElem?_map, hv, Option.map_some]
  · rw [Volume.failing]
    split
    · rfl
    · exact hfailed

/-- **Whatever the calls are**, the volumes stay. -/
theorem Orderly.keeps_after (h : r.Orderly) (calls : List Call) : Keeps r (r.after calls) := by
  induction calls generalizing r with
  | nil => exact .refl r
  | cons call calls ih =>
      cases call with
      | register root => exact (keeps_register r root).trans (ih (h.register root))
      | fail root =>
          rw [h.after_fail]
          exact (keeps_failing _ r).trans (ih (h.failing _))

end

/-! ## Any calls -/

/-- **A registry tells the truth after any calls**, as long as not more different roots have been
registered than there are numbers. Its volumes are the registered roots as they came first, and from any
time on they stay, with their numbers and failures. -/
theorem accurate_after (calls : List Call)
    (hfew : FilePath.AtMost UInt32.size (calls.filterMap Call.registered?)) :
    (empty.after calls).Accurate ∧
      (empty.after calls).volumes.map (·.root) =
        FilePath.firsts (calls.filterMap Call.registered?) ∧
      ∀ earlier later, calls = earlier ++ later →
        Keeps (empty.after earlier) (empty.after calls) := by
  have hreached := Reached.empty.after calls
  refine ⟨hreached.orderly.accurate (hreached.length_le ?_), roots_after calls, ?_⟩
  · exact hfew.mono fun root hroot => by simpa using hroot
  · rintro earlier later rfl
    rw [after_append]
    exact (Reached.empty.after earlier).orderly.keeps_after later

/-- Four roots in different spellings are two volumes. The one that fails has failed for every spelling.
-/
def sampleCalls : List Call :=
  [.register ⟨"/u//x/"⟩, .register ⟨"v"⟩, .fail ⟨"/u/./x"⟩, .register ⟨"/u/x"⟩, .register ⟨"v/."⟩,
    .fail ⟨"w"⟩]

theorem accurate_after_sampleCalls :
    FilePath.AtMost UInt32.size (sampleCalls.filterMap Call.registered?) ∧
      (empty.after sampleCalls).Accurate ∧
      (empty.after sampleCalls).volumes = [⟨0, ⟨"/u//x/"⟩, .failed⟩, ⟨1, ⟨"v"⟩, .healthy⟩] :=
  have hfew : FilePath.AtMost UInt32.size (sampleCalls.filterMap Call.registered?) :=
    .of_length_le (by decide)
  ⟨hfew, (accurate_after sampleCalls hfew).1, by decide +kernel⟩

end Registry

end StorageNode
