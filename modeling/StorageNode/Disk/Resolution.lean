import StorageNode.Disk.Basic
import StorageNode.Disk.Error
import StorageNode.FilePath

/-!
# What a path leads to

A path is followed piece by piece (`Disk.advance`), through directories that may be searched, until
its last name, which stays unread: whether that has to be there depends on what is to be done. Links
on the way are followed, and a link under the last name too where the purpose asks for it
(`Aim.follows`), at most `linkLimit` altogether. Where no links are met, `advance` is all there is.
-/

namespace StorageNode

namespace Disk

/-- What a path names: a directory without a name of its own (the root, or one reached by dots), or a
name in a directory, perhaps with a separator behind it. -/
inductive Goal where
  | directory (l : Location)
  | named (dir : Location) (name : String) (separator : Bool)
deriving DecidableEq, Repr

/-- Where following a path stops. -/
inductive Stop where
  | goal (g : Goal)
  /-- At a link in a directory, with the pieces behind it. -/
  | link (dir : Location) (target : String) (rest : List String)
deriving DecidableEq, Repr

/-- How many bytes a name may have. -/
def nameLimit : Nat := 255

/-- How many bytes a path has to stay below. -/
def pathLimit : Nat := 4096

/-- How many links may be followed on one path. -/
def linkLimit : Nat := 40

/-- The entry of a name in a directory. -/
def find (d : Disk) (dir : Location) (name : String) : Except DiskError (Option DiskEntry) :=
  if nameLimit < name.utf8ByteSize then .error .nameTooLong else .ok (d.entry? (name :: dir))

/-- Follows pieces of a path from a directory. An empty piece is no step; one and two dots are the
directory itself and the one above. Each step needs the right to search. -/
def advance (d : Disk) : Location → List String → Except DiskError Stop
  | cur, [] => .ok (.goal (.directory cur))
  | cur, p :: ps =>
    if p = "" then d.advance cur ps
    else if !(d.rightsOn cur).search then .error .denied
    else if p = "." then d.advance cur ps
    else if p = ".." then d.advance cur.tail ps
    else if ps.all (· = "") then .ok (.goal (.named cur p (ps ≠ [])))
    else
      match d.find cur p with
      | .error e => .error e
      | .ok none => .error .notFound
      | .ok (some (.file ..)) => .error .notDirectory
      | .ok (some (.directory _)) => d.advance (p :: cur) ps
      | .ok (some (.link target)) => .ok (.link cur target ps)

/-- What is to be done with the last name of a path. -/
inductive Aim where
  /-- Something there is used. -/
  | use
  /-- A file there is written, or made. -/
  | write
  /-- The name itself is made, moved or removed. -/
  | name
deriving DecidableEq, Repr

/-- A link under the last name is followed. -/
def Aim.follows (a : Aim) (separator : Bool) : Bool :=
  match a with
  | use => true
  | write => !separator
  | name => false

/-- Follows pieces from a directory, up to the next link that is to be followed. -/
def advanceFor (d : Disk) (aim : Aim) (cur : Location) (ps : List String) : Except DiskError Stop :=
  match d.advance cur ps with
  | .ok (.goal (.named dir name separator)) =>
    match d.entry? (name :: dir) with
    | some (.link target) =>
      if aim.follows separator then .ok (.link dir target (if separator then [""] else []))
      else .ok (.goal (.named dir name separator))
    | _ => .ok (.goal (.named dir name separator))
  | r => r

/-- The pieces of a path. -/
def piecesOf (path : String) : List String := (FilePath.splitPieces path.toList).map String.ofList

/-- The directory in which a path begins that is read in another one. -/
def start (cur : Location) (path : String) : Location :=
  if (⟨path⟩ : FilePath).isAbsolute then [] else cur

/-- Follows pieces from a directory, through at most so many links. -/
def follow (d : Disk) (aim : Aim) : Nat → Location → List String → Except DiskError Goal
  | links, cur, ps =>
    match d.advanceFor aim cur ps with
    | .error e => .error e
    | .ok (.goal g) => .ok g
    | .ok (.link dir target rest) =>
      match links with
      | 0 => .error .tooManyLinks
      | links + 1 => d.follow aim links (start dir target) (piecesOf target ++ rest)

/-- What a path names. -/
def resolve (d : Disk) (aim : Aim) (p : FilePath) : Except DiskError Goal :=
  if p.text.toList.contains '\x00' then .error .zeroInPath
  else if p.text = "" then .error .notFound
  else if pathLimit ≤ p.text.utf8ByteSize then .error .nameTooLong
  else d.follow aim linkLimit (start workplace p.text) (piecesOf p.text)

/-- Where the entry is that a path leads to. -/
def locate (d : Disk) (p : FilePath) : Except DiskError Location :=
  match d.resolve .use p with
  | .error e => .error e
  | .ok (.directory l) => .ok l
  | .ok (.named dir name separator) =>
    match d.find dir name with
    | .error e => .error e
    | .ok none => .error .notFound
    | .ok (some (.directory _)) => .ok (name :: dir)
    | .ok (some _) => if separator then .error .notDirectory else .ok (name :: dir)

end Disk

end StorageNode
