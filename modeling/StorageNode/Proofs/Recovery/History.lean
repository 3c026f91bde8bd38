import StorageNode.Proofs.Recovery.Moves
import StorageNode.Proofs.Scan.Insertions

/-!
# Histories of a catalog

Containers come into a catalog in several ways: they are inserted as they are, or verified from a file, or
found by a scan or by the workers of a recovery. `Catalog.History` is any sequence of these, with all the
attempts to insert that it makes, one after another. The workers of a recovery may take their steps in any
order, and other things may happen between any two of them (`Node.Recovering.Inserting`).

Whichever way they come, the attempts are attempts of one kind (`Catalog.History.insertsAll`). What follows
is in `Catalog.history_writesOnce`: a number is given once, and the different views of the catalog agree.
-/

namespace StorageNode

open Catalog (Insertion)

namespace Node

open Recovering

variable {view : DiskView} {check : StructureCheck}

/-! ## The workers of a recovery -/

/-- The attempt to insert that the next step of a worker makes, if it makes one. -/
def Task.insertions (s : Scan) (c : Catalog) : Task → List Insertion
  | .walking (stop :: _) _ => Scan.insertionsAt s.toLoading c stop
  | _ => []

/-- **A step of a worker does nothing else to the catalog.** -/
theorem Task.insertsAll_advance (s : Scan) (t : Task) (n : Node) :
    n.catalog.InsertsAll (t.insertions s n.catalog) (t.advance s n).2.catalog := by
  cases t with
  | finished rep => exact .nil n.catalog
  | ready =>
      have hsame : (Task.ready.advance s n).2.catalog = n.catalog := by
        simp only [advance]
        split
        · rfl
        split <;> rfl
      rw [hsame]
      exact .nil n.catalog
  | walking ahead found =>
      cases ahead with
      | nil => exact .nil n.catalog
      | cons stop ahead => exact Scan.insertsAll_visit s.toLoading n.catalog stop

/-- **Steps of a recovery with the attempts to insert that they make.** -/
inductive Recovering.Inserting (view : DiskView) (check : StructureCheck) (r : Recovering) :
    List Insertion → Recovering → Prop
  | refl : Inserting view check r [] r
  | tail {is : List Insertion} {before behind : List (Volume × Task)} {v : Volume} {t : Task}
      {n : Node} (h : Inserting view check r is ⟨n, before ++ (v, t) :: behind⟩) (hnext : ¬ t.Done) :
      Inserting view check r (is ++ t.insertions (scanning view check v) n.catalog)
        ⟨(t.advance (scanning view check v) n).2,
          before ++ (v, (t.advance (scanning view check v) n).1) :: behind⟩

/-- Every interleaving makes some attempts. -/
theorem Recovering.exists_inserting {r r' : Recovering} (h : Interleaving view check r r') :
    ∃ is, Inserting view check r is r' := by
  induction h with
  | refl => exact ⟨[], .refl⟩
  | tail _ hstep ih =>
      obtain ⟨is, his⟩ := ih
      cases hstep with
      | mk n hnext => exact ⟨_, .tail his hnext⟩

theorem Recovering.Inserting.insertsAll {r r' : Recovering} {is : List Insertion}
    (h : Inserting view check r is r') : r.node.catalog.InsertsAll is r'.node.catalog := by
  induction h with
  | refl => exact .nil r.node.catalog
  | tail _ _ ih => exact ih.append (Task.insertsAll_advance _ _ _)

end Node

namespace Catalog

/-! ## Histories -/

/-- **A history**: what is done to a catalog, with the attempts to insert that are made and how each of them
was answered. -/
inductive History (c₀ : Catalog) : List Insertion → Catalog → Prop
  | refl : History c₀ [] c₀
  | inserted {is : List Insertion} {c c' : Catalog} {x : Container} (h : History c₀ is c)
      (hinsert : c.insert x = .ok c') : History c₀ (is ++ [⟨x, none⟩]) c'
  | refused {is : List Insertion} {c : Catalog} {x : Container} {e : DuplicateContainer}
      (h : History c₀ is c) (hinsert : c.insert x = .error e) : History c₀ (is ++ [⟨x, some e⟩]) c
  /-- The container with a number is read from a file. -/
  | verified {is : List Insertion} {c c' : Catalog} {a : Attempt} {es : List Event}
      (h : History c₀ is c) (l : Loading) (id : ContainerId) (file : FilePath)
      (hanswer : c.admit (l.examineFile id file) = (a, c', es)) :
      History c₀ (is ++ (l.examineFile id file).insertions c) c'
  | scanned {is : List Insertion} {c : Catalog} (h : History c₀ is c) (s : Scan) (r : Registry) :
      History c₀ (is ++ s.insertions c) (s.run c r).catalog
  /-- Workers take steps of a recovery. They need not have been at the beginning, nor come to an end. -/
  | recovered {is js : List Insertion} {view : DiskView} {check : StructureCheck}
      {r r' : Node.Recovering} (h : History c₀ is r.node.catalog)
      (hsteps : r.Inserting view check js r') : History c₀ (is ++ js) r'.node.catalog

variable {c₀ c : Catalog} {is : List Insertion}

/-- A whole recovery goes on with a history. -/
theorem History.run {n : Node} (h : History c₀ is n.catalog) (view : DiskView)
    (check : StructureCheck) : ∃ js, History c₀ (is ++ js) (n.run view check).2.1.catalog := by
  obtain ⟨r, hr, -, hnode, -⟩ := Node.exists_run n view check
  obtain ⟨js, hjs⟩ := Node.Recovering.exists_inserting hr
  refine ⟨js, ?_⟩
  rw [← hnode]
  exact .recovered (r := .start n) h hjs

/-- **All that is done to a catalog is to attempt to insert.** -/
theorem History.insertsAll (h : History c₀ is c) : c₀.InsertsAll is c := by
  induction h with
  | refl => exact .nil c₀
  | inserted _ hinsert ih => exact ih.append (inserts_of_ok hinsert).insertsAll
  | refused _ hinsert ih => exact ih.append (inserts_of_error hinsert).insertsAll
  | verified _ l id file hanswer ih => exact ih.append (Attempt.insertsAll_admit hanswer)
  | scanned _ s r ih => exact ih.append (Scan.insertsAll_run s _ r)
  | recovered _ hsteps ih => exact ih.append hsteps.insertsAll

/-! ## Numbers are given once -/

/-- **The views of a catalog agree.** The numbers are those that lead to a container, in ascending order,
and each container is listed on its own volume and on no other. -/
structure Coherent (c : Catalog) : Prop where
  numbered : c.Numbered
  ascending_ids : c.ids.Pairwise (· < ·)
  mem_ids_iff : ∀ id, id ∈ c.ids ↔ ∃ x, c.get? id = some x
  ascending_containersOn : ∀ v, ((c.containersOn v).map (·.id)).Pairwise (· < ·)
  mem_containersOn_iff : ∀ v x, x ∈ c.containersOn v ↔ c.get? x.id = some x ∧ x.volume = v

theorem Numbered.coherent (h : c.Numbered) : c.Coherent where
  numbered := h
  ascending_ids := c.ascending_ids
  mem_ids_iff _ := Catalog.mem_ids_iff
  ascending_containersOn := h.ascending_containersOn
  mem_containersOn_iff v x := by
    rw [Catalog.mem_containersOn_iff]
    refine and_congr_left fun _ => ⟨fun ⟨id, hx⟩ => ?_, fun hx => ⟨x.id, hx⟩⟩
    rw [h id x hx]
    exact hx

/-- What comes of an attempt is known from what is in the catalog under the number. -/
theorem Inserts.answer {c' : Catalog} {i : Insertion} (h : c.Inserts i c') :
    (∀ old, c.get? i.container.id = some old →
      i.refusal = some ⟨i.container.id, old.volume, i.container.volume⟩ ∧ c' = c) ∧
    (c.get? i.container.id = none → i.refusal = none ∧ c.Gains i.container c') := by
  cases h with
  | gains hg =>
      refine ⟨fun old hold => ?_, fun _ => ⟨rfl, hg⟩⟩
      rw [hg.vacant] at hold
      cases hold
  | refused hold =>
      refine ⟨fun old' hold' => ?_, fun hnone => ?_⟩
      · obtain rfl := Option.some.inj (hold.symm.trans hold')
        exact ⟨rfl, rfl⟩
      · rw [hnone] at hold
        cases hold

/-- **A number is given once.** In every history from an empty catalog

* an attempt to insert a container whose number is taken is refused, with the number and both volumes, and
  changes nothing, and any other one succeeds and changes what is under its number only;
* there are as many containers as attempts that succeeded, and the views of the catalog agree;
* what is in the catalog is found there in whatever comes later.

The attempts of a scan that comes to its end are those that its report tells of. -/
theorem history_writesOnce (h : History .empty is c) :
    (∀ before i behind, is = before ++ i :: behind → ∃ c₁ c₂,
      Catalog.empty.InsertsAll before c₁ ∧ c₂.InsertsAll behind c ∧
      (∀ old, c₁.get? i.container.id = some old →
        i.refusal = some ⟨i.container.id, old.volume, i.container.volume⟩ ∧ c₂ = c₁) ∧
      (c₁.get? i.container.id = none → i.refusal = none ∧ c₁.Gains i.container c₂) ∧
      c₁.Extends c ∧ c₂.Extends c) ∧
    c.size = is.countP (·.succeeded) ∧ c.Coherent ∧
    (∀ js c', History c js c' → c.Extends c') ∧
    ∀ (s : Scan) r report, (s.run c r).report = some report →
      report.loaded = ((s.insertions c).filter (·.succeeded)).map (·.container.id) ∧
      report.skipped.filterMap (·.refusal?) = (s.insertions c).filterMap (·.refusal) := by
  have hall := h.insertsAll
  refine ⟨fun before i behind his => ?_, ?_, (hall.numbered numbered_empty).coherent,
    fun js c' h' => h'.insertsAll.keeps, fun s r report => Scan.insertions_of_report⟩
  · subst his
    obtain ⟨c₁, hbefore, hlater⟩ := hall.exists_of_append
    cases hlater with
    | cons hi hbehind =>
        exact ⟨c₁, _, hbefore, hbehind, hi.answer.1, hi.answer.2, hi.keeps.trans hbehind.keeps,
          hbehind.keeps⟩
  · rw [hall.size_eq]
    exact Nat.zero_add _

/-! ## A sample -/

/-- A container of a volume under the number `5`. -/
def strayContainer (v : VolumeId) : Container :=
  .ofDescriptor (.keyValue 5 {}) {} (.ofDirectory ⟨"/x/5"⟩ 5) v

/-- A container that is inserted first is there when another one has been refused, a third one been
verified and a volume been scanned, and still is when another volume has been recovered. -/
theorem history_writesOnce_stray : ∃ is c c', History .empty is c ∧
    c' = (Node.run ⟨⟨[Node.trioVolume 1 "v"]⟩, c⟩ Node.trio.view .indexFile).2.1.catalog ∧
    c.get? 5 = some (strayContainer 7) ∧ c'.get? 5 = some (strayContainer 7) ∧
    c.size = is.countP (·.succeeded) := by
  let s := Node.scanning Node.trio.view .indexFile (Node.trioVolume 0 "u")
  let file := Node.trioHome "u" "5" / "metadata" / Layout.descriptorName 5
  obtain ⟨c₁, hinsert, hrefuse, hfive⟩ : ∃ c₁, Catalog.empty.insert (strayContainer 7) = .ok c₁ ∧
      c₁.insert (strayContainer 8) = .error ⟨5, 7, 8⟩ ∧ c₁.get? 5 = some (strayContainer 7) :=
    ⟨_, rfl, rfl, rfl⟩
  have hfirst : History .empty _ c₁ := (History.refl.inserted hinsert).refused hrefuse
  -- what is there after the first insertion stays
  obtain ⟨-, -, -, hlater, -⟩ := history_writesOnce hfirst
  rcases hanswer : c₁.admit (s.examineFile 5 file) with ⟨a, c₂, es⟩
  obtain ⟨is, c, hscanned, hget⟩ :
      ∃ is c, History .empty is c ∧ c.get? 5 = some (strayContainer 7) :=
    ⟨_, _, (hfirst.verified s.toLoading 5 file hanswer).scanned s .empty,
      hlater _ _ ((History.refl.verified s.toLoading 5 file hanswer).scanned s .empty) 5 _ hfive⟩
  obtain ⟨-, hsize, -, hrecovered, -⟩ := history_writesOnce hscanned
  obtain ⟨js, hrun⟩ :=
    History.refl.run (n := ⟨⟨[Node.trioVolume 1 "v"]⟩, c⟩) Node.trio.view .indexFile
  exact ⟨is, c, _, hscanned, rfl, hget, hrecovered js _ hrun 5 _ hget, hsize⟩

end Catalog

end StorageNode
