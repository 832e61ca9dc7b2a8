import Raceway.Disk.Error
import Raceway.Disk.Path
/-!
# The file system

A file system reads files and changes its content in small steps, each of which can fail. A file is
replaced in such a way that it always holds either its old content or its new one: the new content
is prepared beside it and then takes its place in a single step.

## Main definitions

* `Raceway.Change`: a step.
* `Raceway.Disk`: the actions of a file system.
* `Raceway.Change.replacement`: the steps that replace a file.
* `Raceway.Change.addition`: the steps that add to the end of a file.
-/

namespace Raceway

/-- A step that changes the content of a file system. -/
inductive Change where
  /-- Make a folder, and all those on the way to it, where they are missing. -/
  | makeFolders (p : Path)
  /-- Make a file without content, or take all content from one. -/
  | clear (p : Path)
  /-- Make a file without content, if there is none. -/
  | touch (p : Path)
  /-- Write bytes behind the content of a file. -/
  | append (p : Path) (bytes : ByteArray)
  /-- Wait until what was written to a file will last. -/
  | sync (p : Path)
  /-- Move a file to another place, whose file it takes away. -/
  | rename (source target : Path)

namespace Change

/-- The steps that make the folder of a path. -/
def foldersOf (p : Path) : List Change :=
  if Path.folder p = "" then [] else [.makeFolders (Path.folder p)]

/-- The steps that replace the content of a file. -/
def replacement (p : Path) (bytes : ByteArray) : List Change :=
  foldersOf p ++ [.clear (Path.partner p), .append (Path.partner p) bytes, .sync (Path.partner p),
    .rename (Path.partner p) p]

/-- The steps that add bytes to the end of a file. -/
def addition (p : Path) (bytes : ByteArray) : List Change :=
  foldersOf p ++ [.touch p, .append p bytes, .sync p]

end Change

/-- The actions of a file system. -/
structure Disk (m : Type → Type) where
  /-- The content of a file. -/
  read : Path → m (Except DiskError ByteArray)
  /-- Carry out a step. -/
  change : Change → m (Except DiskError Unit)

namespace Disk

variable {m : Type → Type} [Monad m]

/-- Carry out steps one after the other, up to the first one that fails. -/
def changes (disk : Disk m) : List Change → m (Except DiskError Unit)
  | [] => pure (.ok ())
  | c :: rest => do
    match ← disk.change c with
    | .ok () => disk.changes rest
    | .error e => return .error e

/-- Replace the content of a file. -/
def replace (disk : Disk m) (p : Path) (bytes : ByteArray) : m (Except DiskError Unit) :=
  disk.changes (Change.replacement p bytes)

/-- Add bytes to the end of a file. -/
def addTo (disk : Disk m) (p : Path) (bytes : ByteArray) : m (Except DiskError Unit) :=
  disk.changes (Change.addition p bytes)

/-- Bytes as text. -/
def text (bytes : ByteArray) : Except DiskError String :=
  match String.fromUTF8? bytes with
  | some s => .ok s
  | none => .error .notText

/-- The content of a text file. -/
def readText (disk : Disk m) (p : Path) : m (Except DiskError String) := do
  return (← disk.read p).bind text

end Disk

end Raceway
