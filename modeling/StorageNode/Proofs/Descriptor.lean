import Mathlib
import StorageNode.Descriptor.Document
import StorageNode.Proofs.Utf8

/-!
# What a descriptor says

The settings of a new container are read off the payload of its descriptor (`settings?_keyValue`). What
is read from a text depends on its tokens alone (`Yaml.read_encode`), which is how a text that is at hand
is read: scanned once, and then taken for its tokens.
-/

namespace StorageNode

namespace Yaml

section

variable {text : List Char} {tokens : List Token} {root : Node}

/-- A text of legal characters is the document of its tokens. -/
theorem parse_encode (hlegal : text.all isLegal = true) (hscan : Token.scan? text = some tokens)
    (hroot : rootOfTokens tokens = some (some root)) :
    Document.parse? (Utf8.encode (String.ofList text)) = .ok (some ⟨root, root.anchored⟩) := by
  simp only [Document.parse?, Utf8.encode, Utf8.decode?_flatMap, String.toList_ofList,
    Option.bind_eq_bind, Option.bind_some, hlegal, hscan, hroot]
  rfl

/-- **What is read from a text** of legal characters is decided by its tokens. -/
theorem read_encode {α : Type} (f : Document → Node → Read α) (hlegal : text.all isLegal = true)
    (hscan : Token.scan? text = some tokens) (hroot : rootOfTokens tokens = some (some root)) {a : α}
    (hread : (f ⟨root, root.anchored⟩ root 0).map (·.1) = .ok a) :
    read f (Utf8.encode (String.ofList text)) = .ok a := by
  rw [read, parse_encode hlegal hscan hroot]
  exact congrArg (Except.mapError _) hread

end

end Yaml

namespace Descriptor

open Yaml (Token)

/-! ## The descriptor of a new container -/

/-- An unsigned number is read back. -/
theorem wordIn_ofWord (n : UInt64) : wordIn (.integer (.ofWord n)) = .ok n := by
  simp [wordIn, Yaml.Value.untagged, Yaml.Integer.ofWord]

/-- **The settings of a new container** are those that its descriptor was made with. -/
theorem settings?_keyValue (id : ContainerId) (settings : ContainerSettings) :
    (keyValue id settings).settings? = .ok settings := by
  have hstring : ∀ s expected, stringIn expected (.string s) = .ok s := fun _ _ => rfl
  simp [settings?, keyValue, SettingsDraft.addAll, SettingsDraft.add, hstring, wordIn_ofWord,
    SettingsDraft.complete, Except.map]

/-! ## A sample -/

/-- The text of a descriptor, line by line, behind the first line, which tells the number. -/
def sampleLines (first : String) : List Char :=
  [first, "container_type: KeyValueContainer\n", "layout_version: 1\n", "state: OPEN\n",
    "metadata: {}\n", "index_db_type: RocksDB\n", "max_size_gb: 5\n"].flatMap String.toList

/-- The text of the descriptor of a new container. -/
def sampleText (id : ContainerId) : List Char :=
  sampleLines ("container_id: " ++ ContainerId.text id ++ "\n")

/-- A scalar as it is mostly written. -/
def plainly (s : String) : Yaml.Node := .scalar none none .plain s

/-- The tokens of a line with a key and a value. -/
def lineTokens (key value : String) : List Token :=
  [.key, .scalar .plain key, .value, .scalar .plain value]

/-- The tokens of that text, where the number is written as told. -/
def sampleTokens (number : String) : List Token :=
  [.blockMappingStart] ++ lineTokens "container_id" number ++
    lineTokens "container_type" "KeyValueContainer" ++ lineTokens "layout_version" "1" ++
    lineTokens "state" "OPEN" ++
    [.key, .scalar .plain "metadata", .value, .flowMappingStart, .flowMappingEnd] ++
    lineTokens "index_db_type" "RocksDB" ++ lineTokens "max_size_gb" "5" ++ [.blockEnd]

/-- The bytes of that text. -/
def sampleBytes (id : ContainerId) : Bytes := Utf8.encode (String.ofList (sampleText id))

/-- The descriptors of two containers are read from them. -/
theorem ofBytes_sampleBytes {id : ContainerId} (h : id = 5 ∨ id = 6) :
    ofBytes (sampleBytes id) = .ok (keyValue id {}) := by
  rcases h with rfl | rfl
  · have hlegal : (sampleText 5).all Yaml.isLegal = true := by decide +kernel
    have hscan : Token.scan? (sampleText 5) = some (sampleTokens "5") := by
      rw [show sampleText 5 = sampleLines "container_id: 5\n" from rfl]
      cbv
    exact Yaml.read_encode ofNode hlegal hscan rfl rfl
  · have hlegal : (sampleText 6).all Yaml.isLegal = true := by decide +kernel
    have hscan : Token.scan? (sampleText 6) = some (sampleTokens "6") := by
      rw [show sampleText 6 = sampleLines "container_id: 6\n" from rfl]
      cbv
    exact Yaml.read_encode ofNode hlegal hscan rfl rfl

/-- The descriptor of a new container 5 is read back from the bytes that it is written to. -/
theorem ofBytes_sample {bytes : Bytes} (h : (keyValue 5 {}).toBytes = .ok bytes) :
    ofBytes bytes = .ok (keyValue 5 {}) := by
  have htext : (keyValue 5 {}).toText = .ok (String.ofList (sampleText 5)) := by decide +kernel
  rw [toBytes, htext] at h
  obtain rfl := Except.ok.inj h
  exact ofBytes_sampleBytes (.inl rfl)

end Descriptor

end StorageNode
