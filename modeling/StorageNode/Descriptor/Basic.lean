import StorageNode.SortedMap
import StorageNode.Layout
import StorageNode.Yaml.Value

/-!
# Descriptors of containers

A descriptor says what a container is: its number, its type, the version of its layout, its state and
free-form metadata. What else is written in it is its payload, kept as data without a type until a
reader asks for the settings of its type (`Descriptor.settings?`). Any text is the tag of a type; one
type is supported.
-/

namespace StorageNode

/-- The type of a container, by its tag. -/
structure ContainerKind where
  tag : String
deriving DecidableEq, Inhabited, Repr

namespace ContainerKind

/-- The type of containers that keep their block records in a key-value index. -/
def keyValue : ContainerKind := ⟨"KeyValueContainer"⟩

/-- Containers of the type can be loaded. -/
def isSupported (k : ContainerKind) : Bool := k = keyValue

end ContainerKind

/-- The state a container is in. -/
inductive ContainerState where
  | opened
  | closing
  | quasiClosed
  | closed
  | unhealthy
deriving DecidableEq, Inhabited, Repr

namespace ContainerState

/-- All states. -/
def all : List ContainerState := [opened, closing, quasiClosed, closed, unhealthy]

/-- The word for a state in a descriptor. -/
def word : ContainerState → String
  | opened => "OPEN"
  | closing => "CLOSING"
  | quasiClosed => "QUASI_CLOSED"
  | closed => "CLOSED"
  | unhealthy => "UNHEALTHY"

/-- The word for a state in the log. -/
def label : ContainerState → String
  | opened => "Open"
  | closing => "Closing"
  | quasiClosed => "QuasiClosed"
  | closed => "Closed"
  | unhealthy => "Unhealthy"

/-- The state a word of a descriptor stands for. -/
def ofWord? (w : String) : Option ContainerState := all.find? (·.word = w)

@[simp] theorem ofWord?_word (s : ContainerState) : ofWord? s.word = some s := by
  cases s <;> decide

end ContainerState

/-- Settings of a key-value container. -/
structure ContainerSettings where
  /-- The kind of database the index is kept in. -/
  indexDatabase : String := "RocksDB"
  maxGigabytes : UInt64 := 5
deriving DecidableEq, Inhabited, Repr

/-- What is recorded about one container. -/
structure Descriptor where
  id : ContainerId
  kind : ContainerKind
  layoutVersion : UInt32 := 1
  state : ContainerState
  metadata : SortedMap String String := .empty
  /-- Entries beyond the common ones, in the order in which they are written. -/
  payload : List (Yaml.Value × Yaml.Value) := []

namespace Descriptor

open Yaml (Value)

/-- The descriptor of a new key-value container. -/
def keyValue (id : ContainerId) (settings : ContainerSettings) : Descriptor where
  id := id
  kind := .keyValue
  state := .opened
  payload := [(.string "index_db_type", .string settings.indexDatabase),
    (.string "max_size_gb", .integer (.ofWord settings.maxGigabytes))]

/-- The descriptors say the same; the order of their payloads does not count. -/
def same (d e : Descriptor) : Bool :=
  d.id = e.id && d.kind = e.kind && d.layoutVersion = e.layoutVersion && d.state = e.state
    && d.metadata = e.metadata && (Value.mapping d.payload).same (.mapping e.payload)

/-! ## Settings -/

/-- A string, perhaps tagged. -/
def stringIn (expected : String) (v : Value) : Except Mismatch String :=
  match v.untagged with
  | .string s => .ok s
  | _ => .error (.type v.found expected)

/-- An unsigned number, perhaps tagged. -/
def wordIn (v : Value) : Except Mismatch UInt64 :=
  match v.untagged with
  | .integer n =>
    if 0 ≤ n.value then .ok (UInt64.ofNat n.value.toNat) else .error (.value (.signed n.value) "u64")
  | _ => .error (.type v.found "u64")

/-- Settings in the making. -/
structure SettingsDraft where
  indexDatabase : Option String := none
  maxGigabytes : Option UInt64 := none
deriving DecidableEq

/-- Takes one entry in. Other keys than those of the two settings are passed over, but have to be
strings. -/
def SettingsDraft.add (draft : SettingsDraft) (e : Value × Value) :
    Except Mismatch SettingsDraft :=
  match stringIn "field identifier" e.1 with
  | .error m => .error m
  | .ok name =>
    if name = "index_db_type" then
      if draft.indexDatabase.isSome then .error (.duplicate name)
      else (stringIn "a string" e.2).map fun s => { draft with indexDatabase := some s }
    else if name = "max_size_gb" then
      if draft.maxGigabytes.isSome then .error (.duplicate name)
      else (wordIn e.2).map fun n => { draft with maxGigabytes := some n }
    else .ok draft

/-- Takes entries in, one after another. -/
def SettingsDraft.addAll (draft : SettingsDraft) :
    List (Value × Value) → Except Mismatch SettingsDraft
  | [] => .ok draft
  | e :: es =>
    match draft.add e with
    | .error m => .error m
    | .ok draft => draft.addAll es

/-- The settings, if none is missing. -/
def SettingsDraft.complete (draft : SettingsDraft) : Except Mismatch ContainerSettings :=
  match draft.indexDatabase, draft.maxGigabytes with
  | none, _ => .error (.missing "index_db_type")
  | _, none => .error (.missing "max_size_gb")
  | some s, some n => .ok ⟨s, n⟩

/-- The settings of a key-value container that the payload holds. -/
def settings? (d : Descriptor) : Except Mismatch ContainerSettings :=
  match ({} : SettingsDraft).addAll d.payload with
  | .error m => .error m
  | .ok draft => draft.complete

end Descriptor

end StorageNode
