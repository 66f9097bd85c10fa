import ClassLoom.ClassName
import ClassLoom.Error

/-!
# Paths

A path is text: names with slashes between them. Repeated slashes count as one.
Joining follows the rule of file systems: a path that begins with a slash starts
at the top, so it replaces what it is joined to.

Which file a path leads to depends on the directories that are there. What is
here can be read off the text alone.
-/

namespace ClassLoom

namespace Path

/-- The number of bytes that a name in a path may have. -/
def nameLimit : Nat := 255

/-- The number of bytes that a path may have. -/
def limit : Nat := 4095

/-- The name of the directory that one is in. -/
def self : String := "."

/-- The name of the directory above. -/
def up : String := ".."

/-- The names that a path consists of. -/
def segments (path : String) : List String :=
  ((path.toList.splitOn '/').filter (· ≠ [])).map String.ofList

/-- The names that a path consists of, if file systems take the path at all. -/
def names (path : String) : Except IoFault (List String) :=
  if path.toList.contains '\x00' then
    .error .nulInName
  else if (utf8 path).length > limit then
    .error .nameTooLong
  else
    .ok (segments path)

/-- Whether a slash stands at the end of a path. Only directories are called so. -/
def endsInSlash (path : String) : Bool :=
  ['/'].isSuffixOf path.toList

/-- A path that is meant from a root. -/
def join (root path : String) : String :=
  if startsWith path "/" then path else root ++ "/" ++ path

/-- The path from the top that consists of the given names. -/
def ofNames (names : List String) : String :=
  "/" ++ "/".intercalate names

/-- The shorter beginnings of a list, the longest first. -/
def beginnings {α : Type} : List α → List (List α)
  | [] => []
  | x :: xs => (beginnings xs).map (x :: ·) ++ [[]]

/-- The paths of the directories above, the nearest first. The name of the
directory that one is in does not count as a step. -/
def parents (path : String) : List String :=
  (beginnings ((segments path).filter (· ≠ self))).map ofNames

end Path

end ClassLoom
