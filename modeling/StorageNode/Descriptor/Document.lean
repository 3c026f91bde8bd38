import StorageNode.Descriptor.Basic
import StorageNode.Yaml.Decode
import StorageNode.Yaml.Printer

/-!
# Descriptors as documents

A descriptor is one mapping: the common entries under their names, the payload beside them. Reading
accepts the entries in any order and takes every unknown one into the payload, whatever it holds, so
that a descriptor of a type unknown here is still understood (`Draft.add`, `Draft.complete`). Writing
puts the common entries first.
-/

namespace StorageNode.Descriptor

open Yaml (Value Document Node Read Emission)

/-! ## Reading -/

/-- A descriptor in the making. -/
structure Draft where
  id : Option ContainerId := none
  kind : Option ContainerKind := none
  layoutVersion : Option UInt32 := none
  state : Option ContainerState := none
  metadata : Option (SortedMap String String) := none
  payload : List (Value × Value) := []

/-- A map of texts; of two entries with the same key the later one counts. -/
def textMap (d : Document) (p : Yaml.Path) (n : Node) : Read (SortedMap String String) := do
  let entries ← d.entries p "a map" n
  let texts ← Document.eachEntry (fun k v => do
    let key ← d.text p "a string" k
    let value ← d.text (Document.stepTo k :: p) "a string" v
    return (key, value)) entries
  return texts.foldl (fun m e => m.insert e.1 e.2) .empty

/-- Refuses a field that is already there. -/
def once (name : String) (present : Bool) (r : Read α) : Read α :=
  if present then Read.mismatch [] (.duplicate name) else r

/-- How deep collections may be nested in a payload: one level less than in its document. -/
def payloadDepth : Nat := Yaml.depthLimit - 1

/-- Takes one entry of the document in. -/
def Draft.add (d : Document) (draft : Draft) (k v : Node) : Read Draft := do
  let name ← d.text [] "field identifier" k
  let p : Yaml.Path := [Document.stepTo k]
  match name with
  | "container_id" => once name draft.id.isSome do
    let n ← d.natural p UInt64.size "u64" v
    return { draft with id := some (UInt64.ofNat n) }
  | "container_type" => once name draft.kind.isSome do
    let tag ← d.text p "a string" v
    return { draft with kind := some ⟨tag⟩ }
  | "layout_version" => once name draft.layoutVersion.isSome do
    let n ← d.natural p UInt32.size "u32" v
    return { draft with layoutVersion := some (UInt32.ofNat n) }
  | "state" => once name draft.state.isSome do
    let word ← d.oneOf p (ContainerState.all.map (·.word)) v
    return { draft with state := ContainerState.ofWord? word }
  | "metadata" => once name draft.metadata.isSome do
    let m ← textMap d p v
    return { draft with metadata := some m }
  | _ =>
    let value ← d.value payloadDepth p v
    return { draft with payload := draft.payload ++ [(.string name, value)] }

/-- Takes entries in, one after another. -/
def Draft.addAll (d : Document) (draft : Draft) : List (Node × Node) → Read Draft
  | [] => pure draft
  | (k, v) :: es => do
    let draft ← draft.add d k v
    draft.addAll d es

/-- The descriptor, if nothing is missing and the keys of the payload are distinct. -/
def Draft.complete (draft : Draft) : Except Mismatch Descriptor :=
  match draft.id, draft.kind, draft.state with
  | none, _, _ => .error (.missing "container_id")
  | _, none, _ => .error (.missing "container_type")
  | _, _, none => .error (.missing "state")
  | some id, some kind, some state =>
    match Yaml.distinctInEntries [] draft.payload with
    | .error m => .error m
    | .ok () => .ok
      { id, kind, state
        layoutVersion := draft.layoutVersion.getD 1
        metadata := draft.metadata.getD .empty
        payload := draft.payload }

/-- The descriptor that a node holds. -/
def ofNode (d : Document) (n : Node) : Read Descriptor := do
  let entries ← d.entries [] "struct ContainerDescriptor" n
  let draft ← ({} : Draft).addAll d entries
  Read.check [] draft.complete

/-- The descriptor that bytes hold. -/
def ofBytes (bytes : Bytes) : Except Yaml.Failure Descriptor := Yaml.read ofNode bytes

/-! ## Writing -/

/-- The common entries of a descriptor. -/
def commonEntries (d : Descriptor) : List (Value × Value) :=
  [(.string "container_id", .integer (.ofWord d.id)),
    (.string "container_type", .string d.kind.tag),
    (.string "layout_version", .integer (.ofWord d.layoutVersion.toUInt64)),
    (.string "state", .string d.state.word),
    (.string "metadata", .mapping (d.metadata.entries.map fun e => (.string e.1, .string e.2)))]

/-- All entries of a descriptor as they are written. -/
def entries (d : Descriptor) : List (Value × Value) := d.commonEntries ++ d.payload

/-- The text of a descriptor. -/
def toText (d : Descriptor) : Except Yaml.WriteError String :=
  (Yaml.emitEntries d.entries ({} : Emission).startMapping).closeMapping.print

/-- The bytes of a descriptor. -/
def toBytes (d : Descriptor) : Except Yaml.WriteError Bytes := d.toText.map Utf8.encode

end StorageNode.Descriptor
