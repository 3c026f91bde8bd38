import StorageNode.SortedMap
import StorageNode.Text.Utf8

/-!
# What a disk holds

A disk is a tree of directories, files and symbolic links. It is kept as the map of its locations: an
entry is found by the names on the way to it, the innermost one first, so that the directory that
holds an entry is the tail of its location. The process that uses the disk owns everything on it, so
of the rights only the owner's count.

Some of what a file system can hold is left out. Names are Unicode text. A file has one name: there are
no hard links, and a change under one name is seen under no other one. There are no sockets, devices or
other kinds of entries, and a disk is one file system, which does not run full of its own (a `Device` may
still refuse what is written).
-/

namespace StorageNode

/-- The way from the root to an entry, the innermost name first. The root is the empty list. -/
abbrev Location := List String

/-- What the owner may do with a file or a directory. -/
structure Rights where
  /-- Read a file, list a directory. -/
  read : Bool := true
  /-- Write a file, add and remove entries of a directory. -/
  write : Bool := true
  /-- Reach the entries of a directory. -/
  search : Bool := true
deriving DecidableEq, Inhabited, Repr

/-- Something on a disk. -/
inductive DiskEntry where
  | file (rights : Rights) (content : Bytes)
  | directory (rights : Rights)
  /-- A symbolic link to a path, read from the directory that holds the link. -/
  | link (target : String)
deriving DecidableEq, Inhabited, Repr

/-- A disk, by its locations. -/
abbrev Disk := SortedMap Location DiskEntry

/-- The rights of a new directory. -/
def Rights.ofDirectory : Rights := {}

/-- The rights of a new file. -/
def Rights.ofFile : Rights := { search := false }

namespace Disk

/-- The directory in which relative paths begin. -/
def workplace : Location := ["work"]

/-- A disk with nothing but an empty working directory. -/
def blank : Disk :=
  ((SortedMap.empty : Disk).insert [] (.directory .ofDirectory)).insert workplace
    (.directory .ofDirectory)

/-- The entry at a location. -/
def entry? (d : Disk) (l : Location) : Option DiskEntry := d.get? l

/-- The rights on a directory; none where there is no directory. -/
def rightsOn (d : Disk) (l : Location) : Rights :=
  match d.entry? l with
  | some (.directory r) => r
  | _ => ⟨false, false, false⟩

/-- The names of the entries of a directory, in no particular order. -/
def names (d : Disk) (l : Location) : List String :=
  d.keys.filterMap fun k =>
    match k with
    | [] => none
    | n :: dir => if dir = l then some n else none

end Disk

/-! ## Changes -/

/-- One change of a disk, or the request to make the changes of a file last. -/
inductive DiskChange where
  | makeDirectory (l : Location)
  | makeFile (l : Location)
  /-- Takes the content of a file away. -/
  | truncate (l : Location)
  | append (l : Location) (bytes : Bytes)
  | sync (l : Location)
  /-- Moves a file or a link, over another one if there is one. -/
  | move (source target : Location)
deriving DecidableEq, Repr

namespace DiskChange

/-- The disk after a change. -/
def apply (d : Disk) : DiskChange → Disk
  | makeDirectory l => d.insert l (.directory .ofDirectory)
  | makeFile l => d.insert l (.file .ofFile [])
  | truncate l =>
    match d.entry? l with
    | some (.file r _) => d.insert l (.file r [])
    | _ => d
  | append l bytes =>
    match d.entry? l with
    | some (.file r content) => d.insert l (.file r (content ++ bytes))
    | _ => d
  | sync _ => d
  | move source target =>
    match d.entry? source with
    | some e => (d.erase source).insert target e
    | none => d

/-- The disk after changes, one after another. -/
def applyAll (d : Disk) (cs : List DiskChange) : Disk := cs.foldl apply d

end DiskChange

end StorageNode
