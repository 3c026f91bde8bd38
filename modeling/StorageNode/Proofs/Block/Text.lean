import StorageNode.Block.Codec
import StorageNode.Proofs.Json.Record

/-!
# The texts of a block record

A record has many texts (`Block.Record.Text`): its metadata may come in any order, each of the records in
it is an object or an array, and members and blanks stand as `Json.RecordText` allows. What each kind of
record holds is listed as its parts, in the order of the fields (`Id.parts`, `Checksum.parts`,
`Chunk.parts`, `entryParts`, `Frame.parts`).

`Record.ofBytes_of_text` says that the record is read from each of its texts. For each kind, the fields of
its shape take its parts (`Id.fills` and so on); a stored form with the metadata in another order stands
for the same record (`Record.ofFrame_perm`).
-/

namespace StorageNode.Block

open Json

/-! ## The parts of records -/

/-- The text of a 64-bit number. -/
def wordText : Form UInt64 := fun n bs => bs = decimal n.toNat

def Id.parts (i : Id) : List Part :=
  [⟨"container_id", wordText i.container, False⟩, ⟨"local_id", wordText i.localId, False⟩]

def Checksum.parts (c : Checksum) : List Part :=
  [⟨"algorithm", Spelled c.algorithm, False⟩,
    ⟨"bytes_per_checksum", (· = decimal c.span.toNat), False⟩,
    ⟨"checksums", listText Spelled c.checksums, False⟩]

def Checksum.form : Form Checksum := fun c => RecordText c.parts

/-- A chunk without a checksum may leave the field out. -/
def Chunk.parts (c : Chunk) : List Part :=
  [⟨"chunk_name", Spelled c.name, False⟩, ⟨"offset", wordText c.offset, False⟩,
    ⟨"len", wordText c.length, False⟩,
    ⟨"checksum", optionText Checksum.form c.checksum, c.checksum = none⟩]

def Chunk.form : Form Chunk := fun c => RecordText c.parts

def entryParts (e : String × String) : List Part :=
  [⟨"key", Spelled e.1, False⟩, ⟨"value", Spelled e.2, False⟩]

def entryForm : Form (String × String) := fun e => RecordText (entryParts e)

/-- Empty lists and an unset size may be left out. -/
def Frame.parts (f : Frame) : List Part :=
  [⟨"block_id", RecordText f.id.parts, False⟩,
    ⟨"chunks", listText Chunk.form f.chunks, f.chunks = []⟩,
    ⟨"metadata", listText entryForm f.metadata, f.metadata = []⟩,
    ⟨"size", optionText wordText f.size, f.size = none⟩]

/-- **The texts of a record**, with blanks around them. -/
def Record.Text : Form Record := fun r bs =>
  ∃ (es : List (String × String)) (w v w' : Bytes), es.Perm r.metadata.entries ∧ Blank w ∧
    Blank w' ∧ RecordText (Frame.parts { r.toFrame with metadata := es }) v ∧ bs = w ++ (v ++ w')

/-! ## Fields -/

theorem word64_reads (n : UInt64) : Reads word64 (wordText n) n := by
  have h := (natBelow_reads (Nat.le_refl _) n.toNat_lt "u64").map UInt64.ofNat
  rwa [UInt64.ofNat_toNat] at h

theorem word32_reads (n : UInt32) : Reads word32 (· = decimal n.toNat) n := by
  have h := (natBelow_reads (by decide) n.toNat_lt "u32").map UInt32.ofNat
  rwa [UInt32.ofNat_toNat] at h

theorem wordText_head {n : UInt64} {bs : Bytes} (h : wordText n bs) : bs.head? ≠ some 0x6E := by
  obtain rfl : bs = decimal n.toNat := h
  intro hhead
  have hdigit := digit_of_mem_decimal (List.mem_of_mem_head? hhead)
  exact absurd hdigit.2 (by decide)

theorem recordText_head {parts : List Part} {bs : Bytes} (h : RecordText parts bs) :
    bs.head? ≠ some 0x6E := by
  cases h <;> simp

/-- The component of a draft for the field of a name, when the fields of some names have been read. -/
def given {β : Type} (names : List String) (name : String) (b : β) : Option β :=
  if name ∈ names then some b else none

theorem given_cons_self {β : Type} (names : List String) (name : String) (b : β) :
    given (name :: names) name b = some b := if_pos List.mem_cons_self

theorem given_cons_ne {β : Type} {name other : String} (h : name ≠ other) (names : List String)
    (b : β) : given (other :: names) name b = given names name b := by simp [given, h]

/-- A component is the field's value, if the value of a field left out is the default. -/
theorem getD_given {β : Type} {names : List String} {name : String} {b d : β}
    (h : name ∉ names → b = d) : (given names name b).getD d = b := by
  unfold given
  split
  · rfl
  · next hnot => exact (h hnot).symm

/-- A field that is kept in one component takes a part, if its value is read from the part's texts. -/
theorem field_takes {δ β : Type} {name : String} {read : Reader β} {get : δ → Option β}
    {set : δ → β → δ} {hasDefault : Bool} {text : Bytes → Prop} {mayOmit : Prop} {b : β}
    {draft : List String → δ} (hread : Reads read text b)
    (hget : ∀ names, get (draft names) = given names name b)
    (hset : ∀ names, set (draft names) b = draft (name :: names))
    (hdefault : mayOmit → hasDefault = true) :
    (field name read get set hasDefault).Takes ⟨name, text, mayOmit⟩ draft where
  name_eq := rfl
  present_eq names := by
    have hsome : (given names name b).isSome = decide (name ∈ names) := by
      unfold given
      split <;> simp_all
    simp only [field, hget, hsome]
  reads names := by
    have hmap := hread.map (set (draft names))
    rwa [hset] at hmap
  hasDefault := hdefault

/-! ## Records in a record -/

/-- The draft of an identity whose fields of some names have been read. -/
def Id.draft (i : Id) (names : List String) : Id.Draft :=
  ⟨given names "container_id" i.container, given names "local_id" i.localId⟩

theorem Id.fills (i : Id) : Id.shape.Fills i.parts i.draft i where
  nodup := by simp [Id.parts]
  takes := by
    refine .cons (field_takes (word64_reads _) (fun _ => rfl) ?_ False.elim)
      (.cons (field_takes (word64_reads _) (fun _ => rfl) ?_ False.elim) .nil) <;>
    simp [Id.draft, given_cons_self, given_cons_ne]
  empty_eq := rfl
  complete_eq names h := by
    simp only [Id.parts, List.forall_mem_cons] at h
    simp only [Id.shape, Id.draft, getD_given fun hnot => (h.1 hnot).elim,
      getD_given fun hnot => (h.2.1 hnot).elim]

/-- The draft of a checksum whose fields of some names have been read. -/
def Checksum.draft (c : Checksum) (names : List String) : Checksum.Draft :=
  ⟨given names "algorithm" c.algorithm, given names "bytes_per_checksum" c.span,
    given names "checksums" c.checksums⟩

theorem Checksum.fills (c : Checksum) : Checksum.shape.Fills c.parts c.draft c where
  nodup := by simp [Checksum.parts]
  takes := by
    refine .cons (field_takes (string_reads _) (fun _ => rfl) ?_ False.elim)
      (.cons (field_takes (word32_reads _) (fun _ => rfl) ?_ False.elim)
        (.cons (field_takes (list_reads string_reads _) (fun _ => rfl) ?_ False.elim) .nil)) <;>
    simp [Checksum.draft, given_cons_self, given_cons_ne]
  empty_eq := rfl
  complete_eq names h := by
    simp only [Checksum.parts, List.forall_mem_cons] at h
    simp only [Checksum.shape, Checksum.draft, getD_given fun hnot => (h.1 hnot).elim,
      getD_given fun hnot => (h.2.1 hnot).elim, getD_given fun hnot => (h.2.2.1 hnot).elim]

/-- The draft of a chunk whose fields of some names have been read. -/
def Chunk.draft (c : Chunk) (names : List String) : Chunk.Draft :=
  ⟨given names "chunk_name" c.name, given names "offset" c.offset, given names "len" c.length,
    given names "checksum" c.checksum⟩

theorem Chunk.fills (c : Chunk) : Chunk.shape.Fills c.parts c.draft c where
  nodup := by simp [Chunk.parts]
  takes := by
    have hchecksum := optional_reads (fun k : Checksum => k.fills.reads)
      (fun _ _ => recordText_head) c.checksum
    refine .cons (field_takes (string_reads _) (fun _ => rfl) ?_ False.elim)
      (.cons (field_takes (word64_reads _) (fun _ => rfl) ?_ False.elim)
        (.cons (field_takes (word64_reads _) (fun _ => rfl) ?_ False.elim)
          (.cons (field_takes hchecksum (fun _ => rfl) ?_ (fun _ => rfl)) .nil))) <;>
    simp [Chunk.draft, given_cons_self, given_cons_ne]
  empty_eq := rfl
  complete_eq names h := by
    simp only [Chunk.parts, List.forall_mem_cons] at h
    simp only [Chunk.shape, Chunk.draft, getD_given fun hnot => (h.1 hnot).elim,
      getD_given fun hnot => (h.2.1 hnot).elim, getD_given fun hnot => (h.2.2.1 hnot).elim,
      getD_given h.2.2.2.1]

/-- The draft of a metadata entry whose fields of some names have been read. -/
def entryDraft (e : String × String) (names : List String) : EntryDraft :=
  ⟨given names "key" e.1, given names "value" e.2⟩

theorem entry_fills (e : String × String) : entryShape.Fills (entryParts e) (entryDraft e) e where
  nodup := by simp [entryParts]
  takes := by
    refine .cons (field_takes (string_reads _) (fun _ => rfl) ?_ False.elim)
      (.cons (field_takes (string_reads _) (fun _ => rfl) ?_ False.elim) .nil) <;>
    simp [entryDraft, given_cons_self, given_cons_ne]
  empty_eq := rfl
  complete_eq names h := by
    simp only [entryParts, List.forall_mem_cons] at h
    simp only [entryShape, entryDraft, getD_given fun hnot => (h.1 hnot).elim,
      getD_given fun hnot => (h.2.1 hnot).elim]

/-- The draft of a stored form whose fields of some names have been read. -/
def Frame.draft (f : Frame) (names : List String) : Frame.Draft :=
  ⟨given names "block_id" f.id, given names "chunks" f.chunks, given names "metadata" f.metadata,
    given names "size" f.size⟩

theorem Frame.fills (f : Frame) : Frame.shape.Fills f.parts f.draft f where
  nodup := by simp [Frame.parts]
  takes := by
    have hchunks := list_reads (fun c : Chunk => c.fills.reads) f.chunks
    have hmetadata := list_reads (fun e => (entry_fills e).reads) f.metadata
    have hsize := optional_reads word64_reads (fun _ _ => wordText_head) f.size
    refine .cons (field_takes f.id.fills.reads (fun _ => rfl) ?_ False.elim)
      (.cons (field_takes hchunks (fun _ => rfl) ?_ (fun _ => rfl))
        (.cons (field_takes hmetadata (fun _ => rfl) ?_ (fun _ => rfl))
          (.cons (field_takes hsize (fun _ => rfl) ?_ (fun _ => rfl)) .nil))) <;>
    simp [Frame.draft, given_cons_self, given_cons_ne]
  empty_eq := rfl
  complete_eq names h := by
    simp only [Frame.parts, List.forall_mem_cons] at h
    simp only [Frame.shape, Frame.draft, getD_given fun hnot => (h.1 hnot).elim,
      getD_given h.2.1, getD_given h.2.2.1, getD_given h.2.2.2.1]

/-! ## The record of a stored form -/

/-- Entries with keys of their own are all added: what is found in the end is one of them, or was there
before. -/
theorem Record.addAll_distinct : ∀ {es : List (String × String)} {r : Record},
    (es.map (·.1)).Nodup → (∀ e ∈ es, r.value? e.1 = none) →
    ∃ m : SortedMap String String, r.addAll es = .ok { r with metadata := m } ∧
      ∀ k v, m.get? k = some v ↔ (k, v) ∈ es ∨ r.value? k = some v
  | [], r, _, _ => ⟨r.metadata, rfl, fun k v => by simp [Record.value?]⟩
  | (key, value) :: es, r, hnodup, hnew => by
      obtain ⟨hkey, hnodup⟩ := List.nodup_cons.mp hnodup
      obtain ⟨hhead, htail⟩ := List.forall_mem_cons.mp hnew
      have hcontains : r.metadata.contains key = false := by
        simpa [SortedMap.contains, Record.value?] using hhead
      have hadd : r.addMetadata key value =
          .ok { r with metadata := r.metadata.insert key value } := by
        simp [addMetadata, hcontains]
      have hlater : ∀ e ∈ es,
          Record.value? { r with metadata := r.metadata.insert key value } e.1 = none := by
        intro e he
        have hne : e.1 ≠ key := fun heq => hkey (List.mem_map.mpr ⟨e, he, heq⟩)
        simpa [Record.value?, hne] using htail e he
      obtain ⟨m, hall, hm⟩ := Record.addAll_distinct hnodup hlater
      refine ⟨m, by rw [addAll, hadd]; exact hall, fun k v => ?_⟩
      rw [hm k v, List.mem_cons, Record.value?, SortedMap.get?_insert]
      by_cases hk : k = key
      · subst hk
        have hnone : r.value? k = none := hhead
        simp [hnone, eq_comm, or_comm]
      · simp [hk, Record.value?]

/-- **The order of the metadata does not matter**: a stored form with it in any order stands for the
record. -/
theorem Record.ofFrame_perm {r : Record} {es : List (String × String)}
    (h : es.Perm r.metadata.entries) : Record.ofFrame { r.toFrame with metadata := es } = .ok r := by
  have hnodup : (es.map (·.1)).Nodup := (h.map Prod.fst).nodup_iff.mpr r.metadata.nodup_keys
  obtain ⟨m, hall, hm⟩ := Record.addAll_distinct (r := .new r.id) hnodup fun _ _ => rfl
  have hmetadata : m = r.metadata := by
    refine SortedMap.ext_get? fun k => Option.ext fun v => ?_
    rw [hm k v, SortedMap.get?_eq_some_iff, h.mem_iff]
    simp [Record.value?, Record.new, SortedMap.get?, SortedMap.empty, SortedMap.lookup]
  simp only [Record.ofFrame, Record.toFrame, hall, hmetadata]
  rfl

/-- **A record is read from each of its texts.** -/
theorem Record.ofBytes_of_text {r : Record} {bs : Bytes} (h : Record.Text r bs) :
    Record.ofBytes bs = .ok r := by
  obtain ⟨es, w, v, w', hes, hw, hw', hv, rfl⟩ := h
  have hdecode := decode_text (Frame.fills _).reads hw hv hw'
  simp only [Record.ofBytes, Frame.ofBytes, hdecode, Record.ofFrame_perm hes]

end StorageNode.Block
