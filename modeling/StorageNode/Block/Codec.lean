import StorageNode.Block.Record
import StorageNode.Json.Decode
import StorageNode.Json.Value

/-!
# Block records as bytes

A record is stored as one JSON object. Writing is canonical: the fields in their order, an unset size
and an absent checksum left out, metadata by ascending keys. Reading is tolerant: members in any
order, unknown ones skipped, empty lists left out, records as arrays of their fields.
-/

namespace StorageNode.Block

open Json

/-! ## Writing -/

/-- A 64-bit number as a value. -/
def ofWord (n : UInt64) : Value := .number n.toNat

/-- An identity as a value. -/
def Id.toValue (i : Id) : Value :=
  .object [("container_id", ofWord i.container), ("local_id", ofWord i.localId)]

/-- A checksum as a value. -/
def Checksum.toValue (c : Checksum) : Value :=
  .object [("algorithm", .string c.algorithm), ("bytes_per_checksum", .number c.span.toNat),
    ("checksums", .array (c.checksums.map .string))]

/-- A chunk as a value. -/
def Chunk.toValue (c : Chunk) : Value :=
  .object ([("chunk_name", .string c.name), ("offset", ofWord c.offset), ("len", ofWord c.length)]
    ++ (c.checksum.map fun k => ("checksum", k.toValue)).toList)

/-- A metadata entry as a value. -/
def entryToValue (e : String × String) : Value :=
  .object [("key", .string e.1), ("value", .string e.2)]

/-- A stored form as a value. -/
def Frame.toValue (f : Frame) : Value :=
  .object ([("block_id", f.id.toValue), ("chunks", .array (f.chunks.map Chunk.toValue)),
    ("metadata", .array (f.metadata.map entryToValue))]
    ++ (f.size.map fun n => ("size", ofWord n)).toList)

/-- The text of a stored form. -/
def Frame.toText (f : Frame) : String := f.toValue.compact

/-- The text of a record. -/
def Record.toText (r : Record) : String := r.toFrame.toText

/-- The bytes of a record. -/
def Record.toBytes (r : Record) : Bytes := Utf8.encode r.toText

/-! ## Reading -/

/-- A 64-bit number. -/
def word64 : Reader UInt64 := fun bs =>
  (natBelow UInt64.size "u64" bs).map fun (n, rest) => (UInt64.ofNat n, rest)

/-- A 32-bit number. -/
def word32 : Reader UInt32 := fun bs =>
  (natBelow UInt32.size "u32" bs).map fun (n, rest) => (UInt32.ofNat n, rest)

/-- A field that is kept in one component of a draft. -/
def field (name : String) (read : Reader β) (get : δ → Option β) (set : δ → β → δ)
    (hasDefault : Bool) : FieldShape δ where
  name := name
  present d := (get d).isSome
  read d bs := (read bs).map fun (b, rest) => (set d b, rest)
  hasDefault := hasDefault

/-- An identity in the making. -/
structure Id.Draft where
  container : Option UInt64 := none
  localId : Option UInt64 := none

/-- The shape of an identity. -/
def Id.shape : Shape Id.Draft Id where
  name := "BlockId"
  fields :=
    [field "container_id" word64 (·.container) (fun d n => { d with container := some n }) false,
     field "local_id" word64 (·.localId) (fun d n => { d with localId := some n }) false]
  empty := {}
  complete d := ⟨d.container.getD 0, d.localId.getD 0⟩

/-- A checksum in the making. -/
structure Checksum.Draft where
  algorithm : Option String := none
  span : Option UInt32 := none
  checksums : Option (List String) := none

/-- The shape of a checksum. -/
def Checksum.shape : Shape Checksum.Draft Checksum where
  name := "ChunkChecksum"
  fields :=
    [field "algorithm" string (·.algorithm) (fun d s => { d with algorithm := some s }) false,
     field "bytes_per_checksum" word32 (·.span) (fun d n => { d with span := some n }) false,
     field "checksums" (list string) (·.checksums) (fun d l => { d with checksums := some l })
       false]
  empty := {}
  complete d := ⟨d.algorithm.getD "", d.span.getD 0, d.checksums.getD []⟩

/-- A chunk in the making. -/
structure Chunk.Draft where
  name : Option String := none
  offset : Option UInt64 := none
  length : Option UInt64 := none
  checksum : Option (Option Checksum) := none

/-- The shape of a chunk. -/
def Chunk.shape : Shape Chunk.Draft Chunk where
  name := "ChunkInfo"
  fields :=
    [field "chunk_name" string (·.name) (fun d s => { d with name := some s }) false,
     field "offset" word64 (·.offset) (fun d n => { d with offset := some n }) false,
     field "len" word64 (·.length) (fun d n => { d with length := some n }) false,
     field "checksum" (optional Checksum.shape.read) (·.checksum)
       (fun d c => { d with checksum := some c }) true]
  empty := {}
  complete d := ⟨d.name.getD "", d.offset.getD 0, d.length.getD 0, d.checksum.getD none⟩

/-- A metadata entry in the making. -/
structure EntryDraft where
  key : Option String := none
  value : Option String := none

/-- The shape of a metadata entry. -/
def entryShape : Shape EntryDraft (String × String) where
  name := "MetadataEntry"
  fields :=
    [field "key" string (·.key) (fun d s => { d with key := some s }) false,
     field "value" string (·.value) (fun d s => { d with value := some s }) false]
  empty := {}
  complete d := (d.key.getD "", d.value.getD "")

/-- A stored form in the making. -/
structure Frame.Draft where
  id : Option Id := none
  chunks : Option (List Chunk) := none
  metadata : Option (List (String × String)) := none
  size : Option (Option UInt64) := none

/-- The shape of a stored form. -/
def Frame.shape : Shape Frame.Draft Frame where
  name := "BlockDataFrame"
  fields :=
    [field "block_id" Id.shape.read (·.id) (fun d i => { d with id := some i }) false,
     field "chunks" (list Chunk.shape.read) (·.chunks) (fun d l => { d with chunks := some l })
       true,
     field "metadata" (list entryShape.read) (·.metadata)
       (fun d l => { d with metadata := some l }) true,
     field "size" (optional word64) (·.size) (fun d n => { d with size := some n }) true]
  empty := {}
  complete d := ⟨d.id.getD default, d.chunks.getD [], d.metadata.getD [], d.size.getD none⟩

/-- The stored form that bytes hold. -/
def Frame.ofBytes (bs : Bytes) : Except Json.Failure Frame := decode Frame.shape.read bs

/-- The record that bytes hold. -/
def Record.ofBytes (bs : Bytes) : Except Error Record :=
  match Frame.ofBytes bs with
  | .ok f => Record.ofFrame f
  | .error e => .error (.encoding e)

end StorageNode.Block
