import StorageNode.Container.Basic
import StorageNode.Descriptor.File

/-!
# Why a container is not loaded

Each cause concerns one container only, and falls into one of five classes. Its text begins with the
number of the container.
-/

namespace StorageNode

/-- What a check of a container's files objects to. -/
inductive StructureFault where
  | missingIndex (file : FilePath)
  | other (words : String)
deriving DecidableEq, Repr

/-- The text of a fault. -/
def StructureFault.message : StructureFault → String
  | missingIndex file => "container index file missing at " ++ Text.quoted file.text
  | other words => words

/-- A container whose number is taken already. -/
structure DuplicateContainer where
  id : ContainerId
  /-- The volume of the container that has the number. -/
  existing : VolumeId
  rejected : VolumeId
deriving DecidableEq, Repr

/-- The text of the refusal of a container whose number is taken. -/
def DuplicateContainer.message (e : DuplicateContainer) : String :=
  "container " ++ ContainerId.text e.id ++ " loaded from " ++ VolumeId.label e.existing
    ++ ", rejected on " ++ VolumeId.label e.rejected

/-- Why a container is not loaded. -/
inductive LoadError where
  | missingMetadata (id : ContainerId) (dir : FilePath)
  | missingDescriptor (id : ContainerId) (file : FilePath)
  | descriptor (id : ContainerId) (cause : Descriptor.Error)
  /-- The descriptor is that of another container. -/
  | idMismatch (expected found : ContainerId) (file : FilePath)
  | unsupportedKind (id : ContainerId) (tag : String)
  /-- The payload does not hold the settings of the declared type. -/
  | payloadMismatch (id : ContainerId) (tag : String) (cause : Mismatch)
  | badStructure (id : ContainerId) (fault : StructureFault)
  | duplicate (cause : DuplicateContainer)
deriving DecidableEq, Repr

/-- The classes of causes. -/
inductive LoadErrorClass where
  | missingMetadata
  | descriptorCorrupt
  | typeError
  | structureInvalid
  | duplicateId
deriving DecidableEq, Repr

namespace LoadErrorClass

/-- All classes. -/
def all : List LoadErrorClass :=
  [missingMetadata, descriptorCorrupt, typeError, structureInvalid, duplicateId]

/-- The word for a class in reports. -/
def word : LoadErrorClass → String
  | missingMetadata => "missing_metadata"
  | descriptorCorrupt => "descriptor_corrupt"
  | typeError => "type_error"
  | structureInvalid => "structure_invalid"
  | duplicateId => "duplicate_id"

/-- The word for a class in the log. -/
def label : LoadErrorClass → String
  | missingMetadata => "MissingMetadata"
  | descriptorCorrupt => "DescriptorCorrupt"
  | typeError => "TypeError"
  | structureInvalid => "StructureInvalid"
  | duplicateId => "DuplicateId"

end LoadErrorClass

namespace LoadError

/-- The class of a cause. -/
def kind : LoadError → LoadErrorClass
  | missingMetadata .. => .missingMetadata
  | missingDescriptor .. => .missingMetadata
  | descriptor .. => .descriptorCorrupt
  | idMismatch .. => .descriptorCorrupt
  | unsupportedKind .. => .typeError
  | payloadMismatch .. => .typeError
  | badStructure .. => .structureInvalid
  | duplicate _ => .duplicateId

/-- A text about one container. -/
def about (id : ContainerId) (words : String) : String :=
  "container " ++ ContainerId.text id ++ ": " ++ words

/-- The text of a cause. -/
def message : LoadError → String
  | missingMetadata id dir => about id ("metadata directory missing at " ++ Text.quoted dir.text)
  | missingDescriptor id file => about id ("descriptor file missing at " ++ Text.quoted file.text)
  | descriptor id cause => about id cause.message
  | idMismatch expected found file =>
    about expected ("descriptor " ++ Text.quoted file.text ++ " declares container "
      ++ ContainerId.text found)
  | unsupportedKind id tag => about id ("unsupported container type " ++ tag)
  | payloadMismatch id tag cause =>
    about id ("declared " ++ tag ++ " but payload does not match: " ++ cause.message Yaml.wording)
  | badStructure id fault => about id fault.message
  | duplicate cause => cause.message

end LoadError

end StorageNode
