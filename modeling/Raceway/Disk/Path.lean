/-!
# Paths

A path is a text of names with slashes between them. Empty names and single dots lead nowhere. A
path that ends in one of them can only lead to a folder.

## Main definitions

* `Raceway.Path.names`: the names of a path.
* `Raceway.Path.folder`: the path without its last name.
* `Raceway.Path.partner`: the place beside a path where its next content is prepared.
-/

namespace Raceway

/-- The text of a path. -/
abbrev Path := String

namespace Path

/-- The pieces of a text between slashes, of which there is at least one. -/
def pieces : List Char → List (List Char)
  | [] => [[]]
  | c :: rest =>
    if c = '/' then [] :: pieces rest
    else
      match pieces rest with
      | [] => [[c]]
      | first :: others => (c :: first) :: others

/-- The piece leads nowhere. -/
def isStill (piece : List Char) : Bool :=
  piece == [] || piece == ['.']

/-- The names of a path, from the first one on. -/
def names (p : Path) : List String :=
  ((pieces p.toList).filter fun piece => !isStill piece).map String.ofList

/-- The path starts at the root of the file system. -/
def isAbsolute (p : Path) : Bool :=
  p.toList.head? == some '/'

/-- The path can only lead to a folder. -/
def leadsToFolder (p : Path) : Bool :=
  (pieces p.toList).getLast?.any isStill

/-- The path ends in a name, and not in a dot or two. -/
def endsInName (p : Path) : Bool :=
  ((pieces p.toList).filter (· != [])).getLast?.any fun piece =>
    !isStill piece && piece != ['.', '.']

/-- The path without its last name. -/
def folder (p : Path) : Path :=
  (if isAbsolute p then "/" else "") ++ String.intercalate "/" (names p).dropLast

/-- The place beside a path where its next content is prepared. -/
def partner (p : Path) : Path :=
  p ++ ".tmp"

end Path

end Raceway
