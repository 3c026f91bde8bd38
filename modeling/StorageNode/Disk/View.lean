import StorageNode.Disk.Resolution

/-!
# What a reader sees of a disk

`DiskView` is all that reading code may ask: the entries of a directory, whether a path leads to a
directory or a file, and the content of a file. Code that is given a view can depend on nothing else,
so two disks with the same answers are alike to it.

Names and paths are Unicode text, as on a `Disk`. A reader that asks twice is answered twice, but a view
does not change on its own: what others do to the disk meanwhile is no part of it.
-/

namespace StorageNode

/-- The answers of a disk to its readers. -/
structure DiskView where
  /-- The names in a directory, in no particular order. -/
  list : FilePath → Except DiskError (List String)
  isDirectory : FilePath → Bool
  isFile : FilePath → Bool
  read : FilePath → Except DiskError Bytes

namespace Disk

/-- A path leads to a directory. -/
def isDirectory (d : Disk) (p : FilePath) : Bool :=
  match d.locate p with
  | .ok l =>
    match d.entry? l with
    | some (.directory _) => true
    | _ => false
  | .error _ => false

/-- A path leads to a file. -/
def isFile (d : Disk) (p : FilePath) : Bool :=
  match d.locate p with
  | .ok l =>
    match d.entry? l with
    | some (.file ..) => true
    | _ => false
  | .error _ => false

/-- The names in the directory that a path leads to. -/
def list (d : Disk) (p : FilePath) : Except DiskError (List String) :=
  match d.locate p with
  | .error e => .error e
  | .ok l =>
    match d.entry? l with
    | some (.directory r) => if r.read then .ok (d.names l) else .error .denied
    | some _ => .error .notDirectory
    | none => .error .notFound

/-- The content of the file that a path leads to. -/
def read (d : Disk) (p : FilePath) : Except DiskError Bytes :=
  match d.locate p with
  | .error e => .error e
  | .ok l =>
    match d.entry? l with
    | some (.file r content) => if r.read then .ok content else .error .denied
    | some (.directory r) => if r.read then .error .isDirectory else .error .denied
    | _ => .error .notFound

/-- What a reader sees of a disk. -/
def view (d : Disk) : DiskView := ⟨d.list, d.isDirectory, d.isFile, d.read⟩

end Disk

namespace DiskView

/-- The text of a file. -/
def readText (v : DiskView) (p : FilePath) : Except DiskError String :=
  match v.read p with
  | .error e => .error e
  | .ok bytes =>
    match Utf8.text? bytes with
    | some s => .ok s
    | none => .error .notText

/-- The directories in a directory, links followed, by ascending names. -/
def subdirectories (v : DiskView) (dir : FilePath) : Except DiskError (List FilePath) :=
  (v.list dir).map fun names =>
    ((names.mergeSort (· ≤ ·)).map (dir / ·)).filter v.isDirectory

end DiskView

end StorageNode
