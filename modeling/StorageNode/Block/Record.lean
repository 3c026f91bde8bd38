import StorageNode.SortedMap
import StorageNode.Json.Failure

/-!
# Block records

A `Block.Record` describes one stored block: its identity, the chunks its data lies in, free-form
metadata, and a size. Metadata keys are written once: adding a present key is refused. The size is
advisory: it is set by hand or computed from the chunks (`Record.computeSize`), and chunk changes
leave it alone. A `Block.Frame` is what is stored of a record; its metadata is a plain list, which
`Record.ofFrame` takes in from the front.
-/

namespace StorageNode.Block

/-- The identity of a block: the container that owns it, and a number unique within it. -/
structure Id where
  container : UInt64
  localId : UInt64
deriving DecidableEq, Inhabited, Repr

/-- The text of an identity. -/
def Id.text (i : Id) : String := toString i.container.toNat ++ ":" ++ toString i.localId.toNat

/-- The order of identities: by container, then by number. -/
def Id.compare (i j : Id) : Ordering :=
  (Ord.compare i.container.toNat j.container.toNat).then
    (Ord.compare i.localId.toNat j.localId.toNat)

/-- Checksums of a chunk's data. -/
structure Checksum where
  algorithm : String
  /-- How many bytes each checksum covers. -/
  span : UInt32
  checksums : List String
deriving DecidableEq, Inhabited, Repr

/-- A contiguous range of a block's data. -/
structure Chunk where
  name : String
  offset : UInt64
  length : UInt64
  checksum : Option Checksum
deriving DecidableEq, Inhabited, Repr

/-- What a node knows about one block. -/
structure Record where
  id : Id
  metadata : SortedMap String String
  chunks : List Chunk
  /-- Unset until it is given or computed. -/
  recordedSize : Option UInt64
deriving DecidableEq, Inhabited

/-- The stored form of a record. -/
structure Frame where
  id : Id
  chunks : List Chunk
  metadata : List (String × String)
  size : Option UInt64
deriving DecidableEq, Inhabited

/-- Why an operation on a record is refused. -/
inductive Error where
  /-- The metadata already has the key. -/
  | duplicateKey (key : String)
  /-- The chunk lengths of the block do not add up to a 64-bit number. -/
  | sizeOverflow (id : Id)
  /-- The bytes are no stored record. -/
  | encoding (cause : Json.Failure)
deriving DecidableEq, Repr

/-- The text of an error. -/
def Error.message : Error → String
  | .duplicateKey key => "metadata key already exists: " ++ key
  | .sizeOverflow id => "chunk lengths of block " ++ id.text ++ " overflow u64"
  | .encoding cause => "block record encoding error: " ++ cause.message

namespace Record

/-- The record of a block of which nothing is known. -/
def new (id : Id) : Record := ⟨id, .empty, [], none⟩

/-! ## Metadata -/

/-- Adds an entry under a key that is not yet present. -/
def addMetadata (r : Record) (key value : String) : Except Error Record :=
  if r.metadata.contains key then .error (.duplicateKey key)
  else .ok { r with metadata := r.metadata.insert key value }

/-- The value under a key. -/
def value? (r : Record) (key : String) : Option String := r.metadata.get? key

/-- A key that is present is refused. -/
theorem addMetadata_of_some {r : Record} {key v : String} (h : r.value? key = some v)
    (value : String) : r.addMetadata key value = .error (.duplicateKey key) := by
  have hcontains : r.metadata.contains key = true := Option.isSome_iff_exists.mpr ⟨v, h⟩
  rw [addMetadata, if_pos hcontains]

/-- A key that is not yet present is added. -/
theorem addMetadata_of_none {r : Record} {key : String} (h : r.value? key = none)
    (value : String) :
    r.addMetadata key value = .ok { r with metadata := r.metadata.insert key value } := by
  have hcontains : ¬ r.metadata.contains key = true := by
    rw [SortedMap.contains, Option.not_isSome_iff_eq_none]
    exact h
  rw [addMetadata, if_neg hcontains]

/-- Takes the entry of a key away, if there is one. -/
def deleteKey (r : Record) (key : String) : Record :=
  { r with metadata := r.metadata.erase key }

/-! ## Chunks -/

/-- Adds a chunk behind the others. -/
def addChunk (r : Record) (c : Chunk) : Record := { r with chunks := r.chunks ++ [c] }

/-- Takes the first chunk equal to `c` away; the flag tells whether there was one. -/
def removeChunk (r : Record) (c : Chunk) : Bool × Record :=
  (r.chunks.contains c, { r with chunks := r.chunks.erase c })

/-- Replaces all chunks. -/
def setChunks (r : Record) (cs : List Chunk) : Record := { r with chunks := cs }

/-! ## Size -/

/-- The size, zero if it is unset. -/
def size (r : Record) : UInt64 := r.recordedSize.getD 0

/-- The size is set. -/
def hasSize (r : Record) : Bool := r.recordedSize.isSome

/-- Sets the size. -/
def setSize (r : Record) (n : UInt64) : Record := { r with recordedSize := some n }

/-- The lengths of chunks added up from `total` on, if no partial sum exceeds 64 bits. -/
def sumLengths? (total : UInt64) : List Chunk → Option UInt64
  | [] => some total
  | c :: cs =>
    if total.toNat + c.length.toNat < UInt64.size then sumLengths? (total + c.length) cs else none

/-- Sets the size to the sum of the chunk lengths. A sum beyond 64 bits leaves the record as it
was. -/
def computeSize (r : Record) : Except Error (UInt64 × Record) :=
  match sumLengths? 0 r.chunks with
  | some n => .ok (n, r.setSize n)
  | none => .error (.sizeOverflow r.id)

/-! ## Frames -/

/-- The stored form; its metadata is in the order of the keys. -/
def toFrame (r : Record) : Frame := ⟨r.id, r.chunks, r.metadata.entries, r.recordedSize⟩

/-- Adds entries one after another. -/
def addAll (r : Record) : List (String × String) → Except Error Record
  | [] => .ok r
  | (key, value) :: rest =>
    match r.addMetadata key value with
    | .ok r' => r'.addAll rest
    | .error e => .error e

/-- The record of a stored form; refused if a metadata key occurs twice. -/
def ofFrame (f : Frame) : Except Error Record :=
  match (new f.id).addAll f.metadata with
  | .ok r => .ok { r with chunks := f.chunks, recordedSize := f.size }
  | .error e => .error e

end Record

end StorageNode.Block
