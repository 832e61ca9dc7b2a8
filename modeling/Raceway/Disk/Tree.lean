import Raceway.Disk.Basic
/-!
# File trees

A file tree is a file system as a value: what is at which place below the working folder. It has no
links. The working folder is its own parent.

## Main definitions

* `Raceway.Location`: a place, as the names on the way to it.
* `Raceway.FileTree`: what is at which place.
* `Raceway.FileTree.locate`: the place that a path leads to.
* `Raceway.FileTree.apply`: a step on a file tree.
* `Raceway.FileTree.disk`: a file tree as a file system.
-/

namespace Raceway

/-- A place, as the names on the way from the working folder to it. -/
abbrev Location := List String

/-- What is at a place. -/
inductive Entry where
  /-- A folder. -/
  | folder
  /-- A file. -/
  | file (content : ByteArray)

/-- What is at which place. The working folder itself is left out. -/
structure FileTree where
  /-- The places and what is there. -/
  entries : List (Location × Entry) := []

namespace FileTree

/-- What is at a place, if anything is. -/
def entry? (t : FileTree) (place : Location) : Option Entry :=
  if place.isEmpty then some .folder else t.entries.lookup place

/-- Take away what is at a place. -/
def erase (t : FileTree) (place : Location) : FileTree :=
  ⟨t.entries.filter (·.1 != place)⟩

/-- Put something at a place. -/
def put (t : FileTree) (place : Location) (e : Entry) : FileTree :=
  ⟨(place, e) :: (t.erase place).entries⟩

/-! ### Paths -/

/-- The greatest number of bytes of a name. -/
def nameLimit : Nat := 255

/-- The place that names lead to from a folder. Only the last name may lead to a file, or to nothing
at all. -/
def follow (t : FileTree) (here : Location) : List String → Except DiskError Location
  | [] => .ok here
  | name :: rest =>
    if name = ".." then t.follow here.dropLast rest
    else if name.utf8ByteSize > nameLimit then .error .longName
    else
      match t.entry? (here ++ [name]) with
      | some .folder => t.follow (here ++ [name]) rest
      | some (.file _) => if rest.isEmpty then .ok (here ++ [name]) else .error .notFolder
      | none => if rest.isEmpty then .ok (here ++ [name]) else .error .notFound

/-- The place that a path leads to. -/
def locate (t : FileTree) (p : Path) : Except DiskError Location :=
  t.follow [] p.names

/-- There is something at the end of a path. -/
def isThere (t : FileTree) (p : Path) : Bool :=
  match t.locate p with
  | .ok place =>
    match t.entry? place with
    | some .folder => true
    | some (.file _) => !p.leadsToFolder
    | none => false
  | .error _ => false

/-- The content of a file. -/
def read (t : FileTree) (p : Path) : Except DiskError ByteArray := do
  match t.entry? (← t.locate p) with
  | some .folder => .error .isFolder
  | some (.file content) => if p.leadsToFolder then .error .notFolder else .ok content
  | none => .error .notFound

/-! ### Steps -/

/-- Make the folders that names lead to from a folder, where they are missing. -/
def makeFolders (t : FileTree) (here : Location) : List String → Except DiskError FileTree
  | [] => .ok t
  | name :: rest =>
    if name = ".." then t.makeFolders here.dropLast rest
    else if name.utf8ByteSize > nameLimit then .error .longName
    else
      match t.entry? (here ++ [name]) with
      | some .folder => t.makeFolders (here ++ [name]) rest
      | some (.file _) => .error (if rest.isEmpty then .taken else .notFolder)
      | none => (t.put (here ++ [name]) .folder).makeFolders (here ++ [name]) rest

/-- Change the file at the end of a path, which is made if it is missing. -/
def writeFile (t : FileTree) (p : Path) (f : ByteArray → ByteArray) :
    Except DiskError FileTree := do
  let place ← t.locate p
  match t.entry? place with
  | some .folder => .error .isFolder
  | some (.file content) =>
    if p.leadsToFolder then .error .notFolder else .ok (t.put place (.file (f content)))
  | none =>
    if p.leadsToFolder then .error .isFolder else .ok (t.put place (.file (f ByteArray.empty)))

/-- Move a file. -/
def rename (t : FileTree) (source target : Path) : Except DiskError FileTree := do
  let sourcePlace ← t.locate source
  let content ← t.read source
  let targetPlace ← t.locate target
  if !target.endsInName then throw .busy
  if target.leadsToFolder then throw .notFolder
  match t.entry? targetPlace with
  | some .folder => throw .isFolder
  | _ => return (t.erase sourcePlace).put targetPlace (.file content)

/-- Carry out a step. A step that fails changes nothing. -/
def step (t : FileTree) : Change → Except DiskError FileTree
  | .makeFolders p => t.makeFolders [] p.names
  | .clear p => t.writeFile p fun _ => ByteArray.empty
  | .touch p => t.writeFile p id
  | .append p bytes => t.writeFile p (· ++ bytes)
  | .sync p => do
    discard (t.read p)
    return t
  | .rename source target => t.rename source target

/-- A file tree as a file system. -/
def disk : Disk (StateM FileTree) where
  read p := do return (← get).read p
  change c := do
    match (← get).step c with
    | .ok t => set t; return .ok ()
    | .error e => return .error e

/-! ### Listings -/

/-- The names in the working folder and what they lead to. -/
def listing (t : FileTree) : List (String × Entry) :=
  t.entries.filterMap fun (place, e) =>
    match place with
    | [name] => some (name, e)
    | _ => none

end FileTree

end Raceway
