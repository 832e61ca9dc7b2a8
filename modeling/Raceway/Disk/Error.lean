/-!
# Errors of the file system

## Main definitions

* `Raceway.DiskError`: why the file system refuses a request.
-/

namespace Raceway

/-- Why the file system refuses a request. -/
inductive DiskError where
  /-- There is nothing at the place, or at one on the way to it. -/
  | notFound
  /-- The place is taken. -/
  | taken
  /-- A folder is wanted, and there is a file. -/
  | notFolder
  /-- A file is wanted, and there is a folder. -/
  | isFolder
  /-- The place cannot be replaced. -/
  | busy
  /-- A name is too long. -/
  | longName
  /-- The content is not text. -/
  | notText
  /-- Any other reason. -/
  | other (reason : String)
deriving DecidableEq, Repr

/-- The wording of an error. -/
def DiskError.message : DiskError → String
  | notFound => "No such file or directory (os error 2)"
  | taken => "File exists (os error 17)"
  | notFolder => "Not a directory (os error 20)"
  | isFolder => "Is a directory (os error 21)"
  | busy => "Device or resource busy (os error 16)"
  | longName => "File name too long (os error 36)"
  | notText => "stream did not contain valid UTF-8"
  | other reason => reason

end Raceway
