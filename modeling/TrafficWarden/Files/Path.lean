import TrafficWarden.Text.Ascii

/-!
# Paths

A path is a sequence of names with slashes between them. Empty names and single points count for
nothing.
-/

namespace TrafficWarden.Files

/-- The names on a path. -/
def names (path : String) : List String :=
  ((Text.splitAt '/' path.toList).filter fun cs => !cs.isEmpty && cs != ['.']).map String.ofList

def isAbsolute (path : String) : Bool := path.toList.head? == some '/'

/-- The last name of a path, unless that leads upwards. -/
def fileName? (path : String) : Option String :=
  match (names path).getLast? with
  | none => none
  | some name => if name = ".." then none else some name

/-- What follows the last point of the last name. A point at its start does not count. -/
def extension? (path : String) : Option String := do
  let name ← fileName? path
  let reversed := name.toList.reverse
  match reversed.dropWhile (· ≠ '.') with
  | [] => none
  | [_] => none
  | _ :: _ => some (String.ofList (reversed.takeWhile (· ≠ '.')).reverse)

end TrafficWarden.Files
