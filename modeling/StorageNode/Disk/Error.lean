/-!
# Why an operation on a disk fails

The causes, and their texts.
-/

namespace StorageNode

/-- Why an operation on a disk fails. -/
inductive DiskError where
  | notFound
  | denied
  /-- A directory is in use as one of its own names. -/
  | busy
  | alreadyThere
  | notDirectory
  | isDirectory
  | nameTooLong
  | tooManyLinks
  /-- The device has no room for more bytes. -/
  | full
  /-- The device does not do what is asked. -/
  | broken
  /-- The path has a character with the number zero. -/
  | zeroInPath
  /-- What was read is no text. -/
  | notText
deriving DecidableEq, Inhabited, Repr

/-- The text of an error. -/
def DiskError.message : DiskError → String
  | notFound => "No such file or directory (os error 2)"
  | denied => "Permission denied (os error 13)"
  | busy => "Device or resource busy (os error 16)"
  | alreadyThere => "File exists (os error 17)"
  | notDirectory => "Not a directory (os error 20)"
  | isDirectory => "Is a directory (os error 21)"
  | nameTooLong => "File name too long (os error 36)"
  | tooManyLinks => "Too many levels of symbolic links (os error 40)"
  | full => "No space left on device (os error 28)"
  | broken => "Input/output error (os error 5)"
  | zeroInPath => "file name contained an unexpected NUL byte"
  | notText => "stream did not contain valid UTF-8"

end StorageNode
