import StorageNode.Recovery
import StorageNode.Proofs.Registry
import StorageNode.Proofs.Scan.Processed

/-!
# Work that concerns some numbers only

What a worker does concerns the numbers of its own directories. `Node.Local` says this of a piece of work:
its result and what it changes in the catalog depend on what the catalog has under these numbers, no other
number is touched, and the registry only learns of failed volumes, in which nothing that others do plays a
part. Pieces of work on numbers of their own may be done in either order (`Node.Local.commute`).

Failures commute because each marks one entry by its root, and no entry's root ever changes
(`Registry.fail_fail`). For the catalog, what one piece of work finds under its numbers is what it would
have found without the other.
-/

namespace StorageNode

/-! ## Catalogs that agree on some numbers -/

/-- The two catalogs hold the same under these numbers. -/
def Catalog.AgreeOn (ids : ContainerId → Prop) (c d : Catalog) : Prop :=
  ∀ id, ids id → c.get? id = d.get? id

/-! ## Local work -/

namespace Node

variable {α β : Type} {ids others : ContainerId → Prop}

/-- **Work that concerns some numbers only.** -/
structure Local (ids : ContainerId → Prop) (f : Node → α × Node) : Prop where
  result_eq : ∀ {n m : Node}, n.catalog.AgreeOn ids m.catalog → (f n).1 = (f m).1
  agree : ∀ {n m : Node}, n.catalog.AgreeOn ids m.catalog →
    (f n).2.catalog.AgreeOn ids (f m).2.catalog
  keeps : ∀ (n : Node) (id : ContainerId), ¬ ids id → (f n).2.catalog.get? id = n.catalog.get? id
  fails : ∀ {n m : Node}, n.catalog.AgreeOn ids m.catalog → ∃ roots : List FilePath,
    (f n).2.registry = n.registry.failAll roots ∧ (f m).2.registry = m.registry.failAll roots

namespace Local

/-- Work that leaves the node as it is. -/
theorem pure (ids : ContainerId → Prop) (a : α) : Local ids (fun n => (a, n)) where
  result_eq _ := rfl
  agree h := h
  keeps _ _ _ := rfl
  fails _ := ⟨[], rfl, rfl⟩

/-- Work may go on as its result tells. -/
theorem bind {f : Node → α × Node} {g : α → Node → β × Node} (hf : Local ids f)
    (hg : ∀ n, Local ids (g (f n).1)) : Local ids (fun n => g (f n).1 (f n).2) where
  result_eq {n m} h := by
    rw [← hf.result_eq h]
    exact (hg n).result_eq (hf.agree h)
  agree {n m} h := by
    rw [← hf.result_eq h]
    exact (hg n).agree (hf.agree h)
  keeps n id hid := ((hg n).keeps _ id hid).trans (hf.keeps n id hid)
  fails {n m} h := by
    obtain ⟨roots, hn, hm⟩ := hf.fails h
    obtain ⟨more, hn', hm'⟩ := (hg n).fails (hf.agree h)
    refine ⟨roots ++ more, ?_, ?_⟩
    · rw [Registry.failAll_append, ← hn]
      exact hn'
    · rw [Registry.failAll_append, ← hm, ← hf.result_eq h]
      exact hm'

/-- What work results in may be carried over. -/
theorem map {f : Node → α × Node} (hf : Local ids f) (g : α → β) :
    Local ids (fun n => (g (f n).1, (f n).2)) :=
  hf.bind (g := fun a n => (g a, n)) fun n => pure ids (g (f n).1)

variable {f : Node → α × Node} {g : Node → β × Node}

/-- Work on other numbers goes unnoticed. -/
theorem agreeOn (hg : Local others g) (hdisjoint : ∀ id, ids id → ¬ others id) (n : Node) :
    (g n).2.catalog.AgreeOn ids n.catalog := fun id hid => hg.keeps n id (hdisjoint id hid)

/-- **Work on different numbers may be done in either order**: the results are the same, and so is the
node in the end. -/
theorem commute (hf : Local ids f) (hg : Local others g) (hdisjoint : ∀ id, ids id → ¬ others id)
    (n : Node) : (f (g n).2).1 = (f n).1 ∧ (g (f n).2).1 = (g n).1 ∧
      (f (g n).2).2 = (g (f n).2).2 := by
  have hids := hg.agreeOn hdisjoint n
  have hothers := hf.agreeOn (fun id hid hid' => hdisjoint id hid' hid) n
  refine ⟨hf.result_eq hids, hg.result_eq hothers, ?_⟩
  have hcatalog : (f (g n).2).2.catalog = (g (f n).2).2.catalog := by
    refine Catalog.ext_get? fun id => ?_
    by_cases hid : ids id
    · rw [hg.keeps _ id (hdisjoint id hid)]
      exact hf.agree hids id hid
    · rw [hf.keeps _ id hid]
      by_cases hid' : others id
      · exact (hg.agree hothers id hid').symm
      · rw [hg.keeps _ id hid', hg.keeps _ id hid', hf.keeps _ id hid]
  have hregistry : (f (g n).2).2.registry = (g (f n).2).2.registry := by
    obtain ⟨roots, hgn, hn⟩ := hf.fails hids
    obtain ⟨more, hfn, hn'⟩ := hg.fails hothers
    rw [hgn, hfn, hn, hn', Registry.failAll_comm]
  calc (f (g n).2).2 = ⟨(f (g n).2).2.registry, (f (g n).2).2.catalog⟩ := rfl
    _ = (g (f n).2).2 := by rw [hregistry, hcatalog]

end Local

end Node

end StorageNode
