
/-!
# Paths — how files are named

A path is a text of names parted by slashes.  The name `.` stays where it is and `..` goes up; a slash in front starts at
the top.  Slashes that follow each other count as one.

* `Path.normal`: the path without its empty and idle names; `..` stays, since what it leaves depends on the files.
* `Path.parent`: the path without its last name.
-/

namespace ThreatModel.Path

/-- The texts between slashes. -/
def split : List Char → List (List Char)
  | []     => [[]]
  | c :: s =>
    if c = '/' then [] :: split s
    else
      match split s with
      | []      => [[c]]
      | w :: ws => (c :: w) :: ws

/-- The names of a path. -/
def names (path : String) : List String := ((split path.toList).filter (· ≠ [])).map String.ofList

/-- The path starts at the top. -/
def isAbsolute (path : String) : Bool := path.toList.head? == some '/'

/-- The path ends in a slash. -/
def endsInSlash (path : String) : Bool := path.toList.getLast? == some '/'

/-- The names of a path that lead somewhere. -/
def movingNames (path : String) : List String := (names path).filter (· ≠ ".")

/-- What stands before the names of an absolute path: one slash, or two where there are exactly two. -/
def lead (path : String) : String :=
  match (path.toList.takeWhile (· = '/')).length with
  | 0 => ""
  | 2 => "//"
  | _ => "/"

/-- A path of these names. -/
def ofNames (start : String) (ns : List String) : String :=
  if start = "" ∧ ns = [] then "." else start ++ String.intercalate "/" ns

/-- The path in normal form. -/
def normal (path : String) : String := ofNames (lead path) (movingNames path)

/-- The path in normal form without its last name. -/
def parent (path : String) : String := ofNames (lead path) (movingNames path).dropLast

/-- What stands before the last slash of a path; empty if there is none. -/
def before (path : String) : String :=
  let head := (path.toList.reverse.dropWhile (· ≠ '/')).reverse
  if head.all (· = '/') then String.ofList head
  else String.ofList (head.reverse.dropWhile (· = '/')).reverse

end ThreatModel.Path
