import ClassLoom.Source.Path

/-!
# File trees

A file system is a tree of files and directories. A path is followed from the top,
name by name, and each name but the last has to lead to a directory. A `Spot` is
where such a walk stands. It remembers the way, both to go up again and to give the
whole tree after a change at the spot.

Making a directory makes the missing ones above it too, and writing a file replaces
what the file held. What stands in the way is a fault, and then nothing changes.
-/

namespace ClassLoom

/-- A file, or a directory with named entries. -/
inductive Tree where
  | file (data : Bytes)
  | directory (entries : List (String × Tree))

/-- The entries with the entry called `name` replaced, or added at the end. -/
def replaceEntry (name : String) (tree : Tree) :
    List (String × Tree) → List (String × Tree)
  | [] => [(name, tree)]
  | entry :: entries =>
    if entry.1 = name then (name, tree) :: entries else entry :: replaceEntry name tree entries

/-- Where a walk through a tree stands. -/
structure Spot where
  /-- What is there. -/
  here : Tree
  /-- The entries of the directories on the way, the nearest first, each with the
  name that was followed. -/
  way : List (List (String × Tree) × String)

namespace Spot

/-- The directory above; the top is above itself. -/
def leave (s : Spot) : Spot :=
  match s.way with
  | [] => s
  | (entries, _) :: way => ⟨.directory entries, way⟩

/-- Follows a name. -/
def follow (s : Spot) (name : String) : Except IoFault Spot :=
  match s.here with
  | .file _ => .error .notDirectory
  | .directory entries =>
    if name = Path.self then
      .ok s
    else if name = Path.up then
      .ok s.leave
    else if (utf8 name).length > Path.nameLimit then
      .error .nameTooLong
    else
      match entries.lookup name with
      | some below => .ok ⟨below, (entries, name) :: s.way⟩
      | none => .error .notFound

/-- Whether a directory is there. -/
def isDirectory (s : Spot) : Bool :=
  match s.here with
  | .file _ => false
  | .directory _ => true

/-- The whole tree, with something else in the place of what is there. -/
def replace (s : Spot) (tree : Tree) : Tree :=
  s.way.foldl (fun below (entries, name) => .directory (replaceEntry name below entries)) tree

/-- The whole tree, with an entry added to the directory that is there. -/
def add (s : Spot) (name : String) (tree : Tree) : Tree :=
  match s.here with
  | .file data => s.replace (.file data)
  | .directory entries => s.replace (.directory (replaceEntry name tree entries))

end Spot

namespace Tree

/-- A directory without entries. -/
def empty : Tree := .directory []

/-- The spot that names lead to from the top. -/
def spot (t : Tree) (names : List String) : Except IoFault Spot :=
  names.foldlM Spot.follow ⟨t, []⟩

/-- The contents of a file. -/
def read (t : Tree) (path : String) : Except IoFault Bytes := do
  match (← t.spot (← Path.names path)).here with
  | .directory _ => .error .isDirectory
  | .file data => if Path.endsInSlash path then .error .notDirectory else .ok data

/-- Whether a path leads to a directory. -/
def hasDirectory (t : Tree) (path : String) : Bool :=
  match Path.names path with
  | .error _ => false
  | .ok names =>
    match t.spot names with
    | .error _ => false
    | .ok s => s.isDirectory

/-- Makes a directory where there is nothing yet. -/
def makeDirectory (t : Tree) (path : String) : Except IoFault Tree := do
  let names ← Path.names path
  let parent ← t.spot names.dropLast
  match names.getLast? with
  | none => .error .alreadyThere
  | some name =>
    match parent.follow name with
    | .ok _ => .error .alreadyThere
    | .error .notFound => .ok (parent.add name empty)
    | .error fault => .error fault

/-- Makes a directory unless it is there already. -/
def ensureDirectory (t : Tree) (path : String) : Except IoFault Tree :=
  match t.makeDirectory path with
  | .error .alreadyThere => if t.hasDirectory path then .ok t else .error .alreadyThere
  | made => made

/-- Makes the first of the given directories unless it is there already. If it is
the directory above that is missing, then that is made first, with the help of the
others. -/
def ensureDirectories (t : Tree) : List String → Except IoFault Tree
  | [] => .ok t
  | path :: above =>
    match t.ensureDirectory path with
    | .error .notFound => do (← t.ensureDirectories above).ensureDirectory path
    | made => made

/-- Writes a file, which may be there already, into a directory. -/
def write (t : Tree) (path : String) (data : Bytes) : Except IoFault Tree := do
  let names ← Path.names path
  let parent ← t.spot names.dropLast
  match names.getLast? with
  | none => .error .isDirectory
  | some name =>
    if !parent.isDirectory then
      .error .notDirectory
    else if Path.endsInSlash path then
      .error .isDirectory
    else
      match parent.follow name with
      | .ok old => if old.isDirectory then .error .isDirectory else .ok (old.replace (.file data))
      | .error .notFound => .ok (parent.add name (.file data))
      | .error fault => .error fault

/-- Makes a file or, where there is no data, a directory, and the directories
above it. -/
def make (t : Tree) (path : String) : Option Bytes → Except IoFault Tree
  | none => t.ensureDirectories (path :: Path.parents path)
  | some data => do (← t.ensureDirectories (Path.parents path)).write path data

end Tree

end ClassLoom
