import StorageNode.Disk.Task

/-!
# Putting a disk into a given state

Besides what the node itself does, a disk is changed by whoever looks after it: directories, files and
links are put in place, rights are set, and things are removed (`Disk.arrange`). `Disk.listing` shows
all that lies below a directory.
-/

namespace StorageNode

/-- Something done to a disk from outside. Missing directories on the way are made. -/
inductive Arrangement where
  | directory (p : FilePath)
  | file (p : FilePath) (content : Bytes)
  | link (p : FilePath) (target : String)
  | rights (p : FilePath) (r : Rights)
  /-- Removes what bears a name, and all below it. -/
  | remove (p : FilePath)
deriving DecidableEq, Repr

/-- Something that lies on a disk, with its path. -/
inductive Listed where
  | directory (p : FilePath)
  | link (p : FilePath)
  /-- The content is empty where it cannot be read. -/
  | file (p : FilePath) (content : Bytes)
deriving DecidableEq, Repr

namespace Disk

/-- The disk with the parent directory of a path. -/
def withParent (p : FilePath) (d : Disk) : Disk :=
  match p.parent? with
  | none => d
  | some q => (makePath q).after d

/-- The location of a name, if it can be reached. -/
def nameAt? (p : FilePath) (d : Disk) : Option Location :=
  match d.resolve .name p with
  | .ok (.named dir name _) => some (name :: dir)
  | _ => none

/-- The disk with other rights on what a path leads to. -/
def setRights (p : FilePath) (r : Rights) (d : Disk) : Disk :=
  match d.locate p with
  | .error _ => d
  | .ok l =>
    match d.entry? l with
    | some (.file _ content) => d.insert l (.file r content)
    | some (.directory _) => d.insert l (.directory r)
    | _ => d

/-- The disk without a location and all below it. -/
def without (l : Location) (d : Disk) : Disk :=
  (d.keys.filter (l.isSuffixOf ·)).foldl (fun d k => d.erase k) d

/-- The disk with something done to it; what cannot be done is left undone. -/
def arrange (d : Disk) : Arrangement → Disk
  | .directory p => (makePath p).after d
  | .file p content => (writeFile p content).after (d.withParent p)
  | .link p target =>
    let d := d.withParent p
    match d.nameAt? p with
    | some l => if (d.entry? l).isSome then d else d.insert l (.link target)
    | none => d
  | .rights p r => (d.withParent p).setRights p r
  | .remove p =>
    match d.nameAt? p with
    | some l => d.without l
    | none => d

/-- All that lies below a directory, by ascending names, each directory before what it holds; at most
`depth` levels. -/
def listingWithin (d : Disk) : Nat → FilePath → List Listed
  | 0, _ => []
  | depth + 1, p =>
    match d.list p, d.locate p with
    | .ok names, .ok l =>
      (names.mergeSort (· ≤ ·)).flatMap fun name =>
        let q := p / name
        match d.entry? (name :: l) with
        | some (.directory _) => .directory q :: d.listingWithin depth q
        | some (.link _) => [.link q]
        | some (.file ..) => [.file q ((d.read q).toOption.getD [])]
        | none => []
    | _, _ => []

/-- All that lies below a directory. -/
def listing (d : Disk) (p : FilePath) : List Listed := d.listingWithin d.size p

end Disk

end StorageNode
