import StorageNode.Disk.View

/-!
# Changing a disk

A task is given a disk and answers with the changes it makes, in order, and with a result or an error
(`DiskTask`). The disk behind a task is the disk with its changes applied, so a task that fails half
way, or is cut off by a crash, has made exactly the changes up to that point (`DiskTask.after`).

Most errors are told by the disk itself: something is missing, in the way, or not permitted. What the
device under the disk may refuse when the content of a file is written is told by a `Device`. A device
that refuses to make a directory, to open a file or to move one leaves the disk as it is; a task that
is stopped there is one that is cut off.
-/

namespace StorageNode

/-- What a task makes of a disk. -/
structure DiskOutcome (ε α : Type) where
  changes : List DiskChange
  result : Except ε α

/-- What the device under a disk refuses when the content of a file is written. -/
structure Device where
  /-- Why a file does not take all of some bytes, and how many of them it takes. -/
  writeFault : Location → Bytes → Option (Nat × DiskError) := fun _ _ => none
  /-- Why a file is not made to last. -/
  syncFault : Location → Option DiskError := fun _ => none

/-- A device that refuses nothing. -/
def Device.sound : Device := {}

/-- Something to be done on a disk. -/
abbrev DiskTask (ε α : Type) := Disk → DiskOutcome ε α

namespace DiskTask

/-- A result without a change. -/
def pure (a : α) : DiskTask ε α := fun _ => ⟨[], .ok a⟩

/-- An error without a change. -/
def fail (e : ε) : DiskTask ε α := fun _ => ⟨[], .error e⟩

/-- One task after another. -/
def bind (t : DiskTask ε α) (f : α → DiskTask ε β) : DiskTask ε β := fun d =>
  match t d with
  | ⟨cs, .error e⟩ => ⟨cs, .error e⟩
  | ⟨cs, .ok a⟩ =>
    let ⟨more, r⟩ := f a (DiskChange.applyAll d cs)
    ⟨cs ++ more, r⟩

instance : Monad (DiskTask ε) where
  pure := pure
  bind := bind

/-- The disk after a task. -/
def after (t : DiskTask ε α) (d : Disk) : Disk := DiskChange.applyAll d (t d).changes

/-- One change. -/
def change (c : DiskChange) : DiskTask ε Unit := fun _ => ⟨[c], .ok ()⟩

/-- A result that is read off the disk. -/
def ask (f : Disk → Except ε α) : DiskTask ε α := fun d => ⟨[], f d⟩

/-- A task with its error put into other words. -/
def mapError (f : ε → ε') (t : DiskTask ε α) : DiskTask ε' α := fun d =>
  let ⟨cs, r⟩ := t d
  ⟨cs, r.mapError f⟩

end DiskTask

namespace Disk

open DiskTask (ask change)

/-! ## Directories -/

/-- Where a new directory is to be made. -/
def newDirectory (p : FilePath) (d : Disk) : Except DiskError Location :=
  match d.resolve .name p with
  | .error e => .error e
  | .ok (.directory _) => .error .alreadyThere
  | .ok (.named dir name _) =>
    match d.find dir name with
    | .error e => .error e
    | .ok (some _) => .error .alreadyThere
    | .ok none => if (d.rightsOn dir).write then .ok (name :: dir) else .error .denied

/-- Makes one directory. -/
def makeDirectory (p : FilePath) : DiskTask DiskError Unit := do
  change (.makeDirectory (← ask (newDirectory p)))

/-- Makes the first of some directories, each the parent of the one before. Where a parent is missing
it is made first. A directory that is there already is no error. -/
def makeDirectories : List FilePath → DiskTask DiskError Unit
  | [] => DiskTask.pure ()
  | p :: parents => fun d =>
    if p.text = "" then ⟨[], .ok ()⟩
    else
      match makeDirectory p d with
      | ⟨_, .error .notFound⟩ =>
        (do
          makeDirectories parents
          fun d => match makeDirectory p d with
            | ⟨_, .error e⟩ => if d.isDirectory p then ⟨[], .ok ()⟩ else ⟨[], .error e⟩
            | made => made : DiskTask DiskError Unit) d
      | ⟨_, .error e⟩ => if d.isDirectory p then ⟨[], .ok ()⟩ else ⟨[], .error e⟩
      | made => made

/-- Makes a directory and those on the way to it. -/
def makePath (p : FilePath) : DiskTask DiskError Unit := makeDirectories p.ancestors

/-! ## Files -/

/-- Where a file is that is opened for writing, and whether it has to be made. -/
def writable (p : FilePath) (d : Disk) : Except DiskError (Location × Bool) :=
  match d.resolve .write p with
  | .error e => .error e
  | .ok (.directory _) => .error .isDirectory
  | .ok (.named dir name separator) =>
    if separator then .error .isDirectory
    else
      match d.find dir name with
      | .error e => .error e
      | .ok none => if (d.rightsOn dir).write then .ok (name :: dir, true) else .error .denied
      | .ok (some (.file r _)) => if r.write then .ok (name :: dir, false) else .error .denied
      | .ok (some (.directory _)) => .error .isDirectory
      | .ok (some (.link _)) => .error .tooManyLinks

/-- Opens a file for writing and keeps its content; it is made if it is missing. -/
def openFile (p : FilePath) : DiskTask DiskError Location := do
  let (l, isNew) ← ask (writable p)
  if isNew then change (.makeFile l)
  return l

/-- Opens a file for writing and drops its content; it is made if it is missing. -/
def createFile (p : FilePath) : DiskTask DiskError Location := do
  let (l, isNew) ← ask (writable p)
  change (if isNew then .makeFile l else .truncate l)
  return l

/-- What a move has to move, and where to; nothing if both names are one. -/
def movable (source target : FilePath) (d : Disk) : Except DiskError (Option (Location × Location)) :=
  match d.resolve .name source, d.resolve .name target with
  | .error e, _ => .error e
  | _, .error e => .error e
  | .ok (.directory _), _ => .error .busy
  | _, .ok (.directory _) => .error .busy
  | .ok (.named from_ name separator), .ok (.named to_ name' separator') =>
    match d.find from_ name, d.find to_ name' with
    | .error e, _ => .error e
    | .ok none, _ => .error .notFound
    | _, .error e => .error e
    | .ok (some _), .ok old =>
      if separator || separator' then .error .notDirectory
      else if name :: from_ = name' :: to_ then .ok none
      else if !(d.rightsOn from_).write || !(d.rightsOn to_).write then .error .denied
      else
        match old with
        | some (.directory _) => .error .isDirectory
        | _ => .ok (some (name :: from_, name' :: to_))

/-- Moves a file, or a link, over what bears the new name. -/
def move (source target : FilePath) : DiskTask DiskError Unit := do
  match ← ask (movable source target) with
  | none => return ()
  | some (l, m) => change (.move l m)

/-- Writes bytes behind the content of a file. Where the device refuses some, the file has got those
before. -/
def writeBytes (device : Device) (l : Location) (bytes : Bytes) : DiskTask DiskError Unit :=
  match device.writeFault l bytes with
  | none => change (.append l bytes)
  | some (n, e) => do
    change (.append l (bytes.take n))
    DiskTask.fail e

/-- Makes what has been written to a file last. -/
def syncFile (device : Device) (l : Location) : DiskTask DiskError Unit :=
  match device.syncFault l with
  | none => change (.sync l)
  | some e => DiskTask.fail e

/-- Puts bytes into a file under another name first, makes them last, and moves the file over the one
they are meant for. -/
def replaceFile (device : Device) (temporary p : FilePath) (bytes : Bytes) :
    DiskTask DiskError Unit := do
  let l ← createFile temporary
  if bytes ≠ [] then writeBytes device l bytes
  syncFile device l
  move temporary p

/-- Writes a file. -/
def writeFile (p : FilePath) (bytes : Bytes) : DiskTask DiskError Unit := do
  let l ← createFile p
  if bytes ≠ [] then change (.append l bytes)

end Disk

end StorageNode
