import StorageNode.Proofs.Descriptor
import StorageNode.Proofs.Scan.Processed

/-!
# The first directory of a number is loaded

`Scan.Serves` tells what one scan does to one number, by the directories of that number which it processes
and which pass all checks. If the number is taken, each of them is skipped as a duplicate. If it is not,
the first of them is loaded, once, and the others are skipped. If there is none, the number stays vacant.
Every scan serves every number in this way (`Scan.exists_serves`).

Along the walk, only a directory of the number that passes all checks can change what the number stands
for, and only while it is vacant (`Scan.quiet`).
-/

namespace StorageNode

namespace Scan

section

variable {l : Loading} {c c' : Catalog} {ss : List Stop} {fs : List Finding} {id : ContainerId}

/-- The container in a directory, skipped as a duplicate of the one that has the number. -/
def duplicateOf (old : Container) (l : Loading) (id : ContainerId) (dir : FilePath) :
    SkippedContainer := ⟨id, dir, .duplicate ⟨id, old.volume, l.volume⟩⟩

/-- A directory changes what a number stands for only if the number is its own and is not taken, and it
passes all checks. -/
theorem quiet (id : ContainerId) {c₁ : Catalog} {dir : FilePath} {m : ContainerId} {a : Attempt}
    (ha : l.Decided dir m c a c₁) (h : m = id → c.get? id = none → ∀ x, ¬ l.Passes dir id x) :
    c₁.get? id = c.get? id ∧ ∀ fs : List Finding,
      ((finding m dir a :: fs).filterMap Finding.loaded?).count id =
        (fs.filterMap Finding.loaded?).count id := by
  cases a with
  | loaded x =>
      obtain ⟨hx, hg⟩ := ha.passes
      have hne : m ≠ id := by
        rintro rfl
        exact h rfl (hx.id_eq ▸ hg.vacant) x hx
      refine ⟨ha.get?_of_ne hne.symm, fun fs => ?_⟩
      exact List.count_cons_of_ne hne
  | skipped cause =>
      rcases ha.gains_or_eq with ⟨x, hx, -⟩ | ⟨-, -, rfl⟩
      · exact Attempt.noConfusion hx
      · exact ⟨rfl, fun _ => rfl⟩
  | crashed => rcases ha.gains_or_eq with ⟨x, hx, -⟩ | ⟨_, hx, -⟩ <;> exact Attempt.noConfusion hx

/-- **Where the number is taken**, every directory of it that passes all checks is skipped. -/
theorem Walks.taken (h : Walks l c ss fs c') {old : Container} (hold : c.get? id = some old) :
    (fs.filterMap Finding.loaded?).count id = 0 ∧ ∀ dir x, (dir, id) ∈ offers ss →
      l.Passes dir id x → .skipped (duplicateOf old l id dir) ∈ fs := by
  induction h with
  | done => exact ⟨rfl, fun dir x hmem => absurd hmem List.not_mem_nil⟩
  | unreadable _ ih =>
      obtain ⟨hcount, hskipped⟩ := ih hold
      exact ⟨hcount, fun dir x hmem hx => List.mem_cons_of_mem _ (hskipped dir x hmem hx)⟩
  | malformed c ss hnone =>
      refine ⟨rfl, fun dir x hmem => ?_⟩
      rw [offers_malformed hnone] at hmem
      exact absurd hmem List.not_mem_nil
  | candidate hid ha _ ih =>
      obtain ⟨hsame, hquiet⟩ := quiet id ha (by simp [hold])
      obtain ⟨hcount, hskipped⟩ := ih (hsame.trans hold)
      refine ⟨(hquiet _).trans hcount, fun dir x hmem hx => ?_⟩
      rw [offers_candidate hid] at hmem
      rcases List.mem_cons.mp hmem with heq | hlater
      · obtain ⟨rfl, rfl⟩ := Prod.mk.inj heq
        rcases hx.decided ha with ⟨-, hg⟩ | ⟨old', hold', -, rfl⟩
        · have hvacant := hg.vacant
          simp [hx.id_eq, hold] at hvacant
        · obtain rfl : old = old' := Option.some.inj (hold.symm.trans hold')
          exact List.mem_cons_self
      · exact List.mem_cons_of_mem _ (hskipped dir x hlater hx)

/-- **Where no directory of the number passes all checks**, the number stays as it is. -/
theorem Walks.unchanged (h : Walks l c ss fs c')
    (hnone : ∀ dir x, (dir, id) ∈ offers ss → ¬ l.Passes dir id x) :
    c'.get? id = c.get? id ∧ (fs.filterMap Finding.loaded?).count id = 0 := by
  induction h with
  | done | malformed => exact ⟨rfl, rfl⟩
  | unreadable _ ih => exact ih hnone
  | candidate hid ha _ ih =>
      rw [offers_candidate hid] at hnone
      obtain ⟨hsame, hquiet⟩ := quiet id ha fun heq _ x =>
        hnone _ x (heq ▸ List.mem_cons_self)
      obtain ⟨hkept, hcount⟩ := ih fun dir x hmem => hnone dir x (List.mem_cons_of_mem _ hmem)
      exact ⟨hkept.trans hsame, (hquiet _).trans hcount⟩

/-- **Where the number is vacant**, the first directory of it that passes all checks is loaded, and the
later ones are skipped. -/
theorem Walks.first (h : Walks l c ss fs c') (hvacant : c.get? id = none)
    {before after : List (FilePath × ContainerId)} {dir : FilePath} {x : Container}
    (hsplit : offers ss = before ++ (dir, id) :: after)
    (hbefore : ∀ p ∈ before, p.2 = id → ∀ y, ¬ l.Passes p.1 id y) (hx : l.Passes dir id x) :
    c'.get? id = some x ∧ (fs.filterMap Finding.loaded?).count id = 1 ∧
      ∀ dir' y, (dir', id) ∈ after → l.Passes dir' id y →
        .skipped (duplicateOf x l id dir') ∈ fs := by
  induction h generalizing before with
  | done => exact absurd (congrArg List.length hsplit) (by simp [offers, numbered])
  | malformed c ss hnone =>
      rw [offers_malformed hnone] at hsplit
      exact absurd (congrArg List.length hsplit) (by simp)
  | unreadable _ ih =>
      obtain ⟨hget, hcount, hskipped⟩ := ih hvacant hsplit hbefore
      exact ⟨hget, hcount, fun dir' y hmem hy => List.mem_cons_of_mem _ (hskipped dir' y hmem hy)⟩
  | @candidate _ _ _ dir₀ m _ _ _ hid ha hrest ih =>
      rw [offers_candidate hid] at hsplit
      cases before with
      | nil =>
          obtain ⟨heq, rfl⟩ := List.cons.inj hsplit
          obtain ⟨rfl, rfl⟩ := Prod.mk.inj heq
          rcases hx.decided ha with ⟨rfl, hg⟩ | ⟨old, hold, -⟩
          · have hget := hg.get?_self
            rw [hx.id_eq] at hget
            obtain ⟨hcount, hskipped⟩ := hrest.taken hget
            refine ⟨hrest.get?_of_some hget, ?_, fun dir' y hmem hy =>
              List.mem_cons_of_mem _ (hskipped dir' y hmem hy)⟩
            exact List.count_cons_self.trans (congrArg (· + 1) hcount)
          · simp [hold] at hvacant
      | cons p before =>
          obtain ⟨rfl, hlater⟩ := List.cons.inj hsplit
          obtain ⟨hp, hbefore⟩ := List.forall_mem_cons.mp hbefore
          obtain ⟨hsame, hquiet⟩ := quiet id ha fun heq _ => hp heq
          obtain ⟨hget, hcount, hskipped⟩ := ih (hsame.trans hvacant) hlater hbefore
          exact ⟨hget, (hquiet _).trans hcount, fun dir' y hmem hy =>
            List.mem_cons_of_mem _ (hskipped dir' y hmem hy)⟩

end

/-! ## What a scan does to one number -/

/-- **What a scan does to one number**: from the catalog before it, over the directories that it
processes, to its report and the catalog behind it. -/
inductive Serves (l : Loading) (ds : List (FilePath × ContainerId)) (id : ContainerId) (c : Catalog)
    (report : ScanReport) (c' : Catalog) : Prop
  /-- The number is taken. -/
  | taken {old : Container} (hold : c.get? id = some old) (hkept : c'.get? id = some old)
      (hloaded : id ∉ report.loaded)
      (hskipped : ∀ dir x, (dir, id) ∈ ds → l.Passes dir id x →
        duplicateOf old l id dir ∈ report.skipped)
  /-- The number is vacant, and stays so. -/
  | vacant (hvacant : c.get? id = none) (hnone : ∀ dir x, (dir, id) ∈ ds → ¬ l.Passes dir id x)
      (hkept : c'.get? id = none) (hloaded : id ∉ report.loaded)
  /-- The number is vacant, and is given to the container in the first directory. -/
  | first {before after : List (FilePath × ContainerId)} {dir : FilePath} {x : Container}
      (hvacant : c.get? id = none) (hsplit : ds = before ++ (dir, id) :: after)
      (hbefore : ∀ p ∈ before, p.2 = id → ∀ y, ¬ l.Passes p.1 id y) (hx : l.Passes dir id x)
      (hgiven : c'.get? id = some x) (hloaded : report.loaded.count id = 1)
      (hskipped : ∀ dir' y, (dir', id) ∈ after → l.Passes dir' id y →
        duplicateOf x l id dir' ∈ report.skipped)

/-- Some directory is the first to have a property, or none has it. -/
theorem exists_first {α : Type} (p : α → Prop) (as : List α) :
    (∀ a ∈ as, ¬ p a) ∨ ∃ before a after, as = before ++ a :: after ∧ p a ∧ ∀ b ∈ before, ¬ p b := by
  classical
  cases hfind : as.find? (p ·) with
  | none => exact .inl fun a ha => by simpa using List.find?_eq_none.mp hfind a ha
  | some a =>
      obtain ⟨ha, before, after, hsplit, hbefore⟩ := List.find?_eq_some_iff_append.mp hfind
      exact .inr ⟨before, a, after, hsplit, by simpa using ha, fun b hb => by
        simpa using hbefore b hb⟩

/-- A walk serves every number. -/
theorem Walks.serves {s : Scan} {c c' : Catalog} {ss : List Stop} {fs : List Finding}
    (h : Walks s.toLoading c ss fs c') (id : ContainerId) :
    Serves s.toLoading (offers ss) id c (s.report fs) c' := by
  have hskips : ∀ x, .skipped x ∈ fs → x ∈ (s.report fs).skipped := fun x hx =>
    List.mem_filterMap.mpr ⟨_, hx, rfl⟩
  cases hold : c.get? id with
  | some old =>
      obtain ⟨hcount, hskipped⟩ := h.taken hold
      exact .taken hold (h.get?_of_some hold) (List.count_eq_zero.mp hcount)
        fun dir x hmem hx => hskips _ (hskipped dir x hmem hx)
  | none =>
      rcases exists_first (fun p => p.2 = id ∧ ∃ x, s.toLoading.Passes p.1 id x) (offers ss) with
        hnone | ⟨before, ⟨dir, m⟩, after, hsplit, ⟨rfl, x, hx⟩, hbefore⟩
      · have hnone' : ∀ dir x, (dir, id) ∈ offers ss → ¬ s.toLoading.Passes dir id x :=
          fun dir x hmem hx => hnone _ hmem ⟨rfl, x, hx⟩
        obtain ⟨hsame, hcount⟩ := h.unchanged hnone'
        exact .vacant hold hnone' (hsame.trans hold) (List.count_eq_zero.mp hcount)
      · have hbefore' : ∀ p ∈ before, p.2 = m → ∀ y, ¬ s.toLoading.Passes p.1 m y :=
          fun p hp heq y hy => hbefore p hp ⟨heq, y, hy⟩
        obtain ⟨hget, hcount, hskipped⟩ := h.first hold hsplit hbefore' hx
        exact .first hold hsplit hbefore' hx hget hcount fun dir' y hmem hy =>
          hskips _ (hskipped dir' y hmem hy)

/-- Where nothing is processed, every number stays as it is. -/
theorem serves_nothing (l : Loading) (id : ContainerId) (c : Catalog) {report : ScanReport}
    (h : report.loaded = []) : Serves l [] id c report c := by
  have hloaded : id ∉ report.loaded := by simp [h]
  cases hold : c.get? id with
  | some old => exact .taken hold hold hloaded fun dir x hmem => absurd hmem List.not_mem_nil
  | none => exact .vacant hold (fun dir x hmem => absurd hmem List.not_mem_nil) hold hloaded

/-- **Every scan reports, and serves every number.** -/
theorem exists_serves (s : Scan) (c : Catalog) (r : Registry) (hview : s.view.WellNamed)
    (hcheck : s.check.NeverCrashes) :
    ∃ report, (s.run c r).report = some report ∧ report.volume = s.volume ∧
      ∀ id, Serves s.toLoading s.processed id c report (s.run c r).catalog := by
  cases hcluster : s.cluster with
  | error fault =>
      rw [run_of_fault hcluster, processed_of_fault hcluster]
      exact ⟨_, rfl, rfl, fun id => serves_nothing _ id c rfl⟩
  | ok cluster =>
      cases hstops : stops s.view (cluster / Layout.currentName) with
      | error e =>
          rw [run_of_unreadable hcluster hstops, processed_of_unreadable hcluster hstops]
          exact ⟨_, rfl, rfl, fun id => serves_nothing _ id c rfl⟩
      | ok ss =>
          obtain ⟨fs, hwalks, hreport⟩ := exists_walks (c := c) (r := r) hview hcheck hcluster hstops
          rw [processed_of_stops hcluster hstops]
          exact ⟨s.report fs, hreport, rfl, hwalks.serves⟩

/-- A directory of a vacant number that passes all checks is not in vain: the number is given away. -/
theorem Serves.given {l : Loading} {ds : List (FilePath × ContainerId)} {id : ContainerId}
    {c c' : Catalog} {report : ScanReport} (h : Serves l ds id c report c') (hvacant : c.get? id = none)
    {dir : FilePath} {x : Container} (hmem : (dir, id) ∈ ds) (hx : l.Passes dir id x) :
    report.loaded.count id = 1 ∧ ∃ y, c'.get? id = some y := by
  cases h with
  | taken hold => simp [hvacant] at hold
  | vacant _ hnone => exact absurd hx (hnone dir x hmem)
  | first _ _ _ _ hgiven hloaded => exact ⟨hloaded, _, hgiven⟩

end Scan

/-! ## A volume with two containers -/

/-- A directory that holds a sample descriptor and an index file passes all checks. -/
theorem Loading.passes_sample {l : Loading} {dir : FilePath} {id : ContainerId} (hid : id = 5 ∨ id = 6)
    (hcheck : l.check = .indexFile) (hmetadata : l.view.isDirectory (dir / "metadata") = true)
    (hdescriptor : l.view.isFile (dir / "metadata" / Layout.descriptorName id) = true)
    (hread : l.view.read (dir / "metadata" / Layout.descriptorName id) =
      .ok (Descriptor.sampleBytes id))
    (hindex : l.view.isFile (ContainerPaths.ofDirectory dir id).index = true) :
    l.Passes dir id (l.described dir id (.keyValue id {}) {}) := by
  have hload : Descriptor.load l.view (dir / "metadata" / Layout.descriptorName id) =
      .ok (.keyValue id {}) := by
    rw [Descriptor.load, hread]
    exact congrArg (Except.mapError _) (Descriptor.ofBytes_sampleBytes hid)
  have htyped : l.Typed dir id (.keyValue id {}) {} :=
    ⟨⟨⟨hmetadata, hdescriptor⟩, hload, rfl⟩, rfl, Descriptor.settings?_keyValue id {}⟩
  refine ⟨_, _, htyped, ?_, rfl⟩
  rw [hcheck]
  simp only [StructureCheck.indexFile, hindex, if_true]

/-- A tree with a volume at `/v`, which has the containers 5 and 6 in its one group. -/
def Disk.stocked : Disk where
  entries := [
    ([], .directory .ofDirectory),
    (["5", "g", "current", "c", "v"], .directory .ofDirectory),
    (["5-dn-container.db", "metadata", "5", "g", "current", "c", "v"], .file .ofFile []),
    (["5.container", "metadata", "5", "g", "current", "c", "v"],
      .file .ofFile (Descriptor.sampleBytes 5)),
    (["6", "g", "current", "c", "v"], .directory .ofDirectory),
    (["6-dn-container.db", "metadata", "6", "g", "current", "c", "v"], .file .ofFile []),
    (["6.container", "metadata", "6", "g", "current", "c", "v"],
      .file .ofFile (Descriptor.sampleBytes 6)),
    (["c", "v"], .directory .ofDirectory),
    (["current", "c", "v"], .directory .ofDirectory),
    (["g", "current", "c", "v"], .directory .ofDirectory),
    (["metadata", "5", "g", "current", "c", "v"], .directory .ofDirectory),
    (["metadata", "6", "g", "current", "c", "v"], .directory .ofDirectory),
    (["v"], .directory .ofDirectory)]
  ascending := by decide

theorem Disk.isPlain_stocked : stocked.IsPlain :=
  ⟨.of_keys (by decide), .of_entries (by simp [stocked])⟩

namespace Scan

/-- A scan of that volume. -/
def stocked : Scan where
  view := Disk.stocked.view
  check := .indexFile
  volume := 0
  root := ⟨"/v"⟩

/-- It processes both directories. -/
theorem processed_stocked :
    stocked.processed = [(⟨"/v/c/current/g/5"⟩, 5), (⟨"/v/c/current/g/6"⟩, 6)] := by
  have hroot : stocked.view.subdirectories stocked.root = .ok [⟨"/v/c"⟩] :=
    DiskView.subdirectories_of_ordered ["c"] (by decide +kernel) (by decide)
  have hcurrent : stocked.view.subdirectories ⟨"/v/c/current"⟩ = .ok [⟨"/v/c/current/g"⟩] :=
    DiskView.subdirectories_of_ordered ["g"] (by decide +kernel) (by decide)
  have hgroup : stocked.view.subdirectories ⟨"/v/c/current/g"⟩ =
      .ok [⟨"/v/c/current/g/5"⟩, ⟨"/v/c/current/g/6"⟩] :=
    DiskView.subdirectories_of_ordered ["5", "6"] (by decide +kernel) (by decide)
  exact processed_of_group hroot hcurrent hgroup

/-- It loads a container of a vacant number from either. -/
theorem loads_stocked {c : Catalog} {id : ContainerId} (hid : id = 5 ∨ id = 6)
    (hvacant : c.get? id = none) (r : Registry) {report : ScanReport}
    (hreport : (stocked.run c r).report = some report) :
    id ∈ report.loaded ∧ ∃ x, (stocked.run c r).catalog.get? id = some x := by
  obtain ⟨report', hreport', -, hserves⟩ := exists_serves stocked c r
    Disk.isPlain_stocked.tree.wellNamed StructureCheck.neverCrashes_indexFile
  obtain rfl := Option.some.inj (hreport'.symm.trans hreport)
  obtain ⟨dir, hmem, x, hx⟩ : ∃ dir, (dir, id) ∈ stocked.processed ∧
      ∃ x, stocked.toLoading.Passes dir id x := by
    rw [processed_stocked]
    rcases hid with rfl | rfl
    · exact ⟨⟨"/v/c/current/g/5"⟩, by simp, _, Loading.passes_sample (.inl rfl) rfl (by decide +kernel)
        (by decide +kernel) rfl (by decide +kernel)⟩
    · exact ⟨⟨"/v/c/current/g/6"⟩, by simp, _, Loading.passes_sample (.inr rfl) rfl (by decide +kernel)
        (by decide +kernel) rfl (by decide +kernel)⟩
  obtain ⟨hcount, hgiven⟩ := (hserves id).given hvacant hmem hx
  exact ⟨List.one_le_count_iff.mp (Nat.le_of_eq hcount.symm), hgiven⟩

end Scan

end StorageNode
