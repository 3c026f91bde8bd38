import StorageNode.Descriptor.Document
import StorageNode.Disk.Task

/-!
# Descriptor files

A descriptor is read from a file as a whole (`Descriptor.load`). It is saved under a temporary name
first and then moved into place, so that the file under its own name is at any time either the old one
or the new one (`Descriptor.save`).
-/

namespace StorageNode.Descriptor

/-- Why a descriptor is not read from its file, or not saved. -/
inductive Error where
  | disk (file : FilePath) (cause : DiskError)
  | malformed (file : FilePath) (cause : Yaml.Failure)
  | unwritable (cause : Yaml.WriteError)
deriving DecidableEq, Repr

/-- The text of an error. -/
def Error.message : Error → String
  | disk file cause =>
    "descriptor I/O error at " ++ Text.quoted file.text ++ ": " ++ cause.message
  | malformed file cause =>
    "malformed descriptor " ++ Text.quoted file.text ++ ": " ++ cause.message
  | unwritable cause => "descriptor encoding error: " ++ cause.message

/-- The descriptor that a file holds. -/
def load (v : DiskView) (file : FilePath) : Except Error Descriptor :=
  match v.read file with
  | .error e => .error (.disk file e)
  | .ok bytes => (ofBytes bytes).mapError (.malformed file)

/-- The name under which a descriptor is written before it is moved to `file`. -/
def temporary (file : FilePath) : FilePath := file.withExtension "tmp"

/-- Makes the directory of a file, if the file has one. -/
def makeParent (file : FilePath) : DiskTask DiskError Unit :=
  match file.parent? with
  | none => DiskTask.pure ()
  | some p => if p.text = "" then DiskTask.pure () else Disk.makePath p

/-- Saves a descriptor in a file. One that cannot be written down changes nothing. -/
def save (file : FilePath) (d : Descriptor) (device : Device := .sound) : DiskTask Error Unit :=
  match d.toBytes with
  | .error e => DiskTask.fail (.unwritable e)
  | .ok bytes =>
    (do
      makeParent file
      Disk.replaceFile device (temporary file) file bytes : DiskTask DiskError Unit).mapError (.disk file)

end StorageNode.Descriptor
