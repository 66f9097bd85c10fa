import ClassLoom.Source
import ClassLoom.Source.Tree

/-!
# Class path directories

A class path directory holds the class `a.b.C` in its file `a/b/C.class`. The
file to open is found by joining the resource path of the class to the root of
the directory. So the class named `.a` or `/a`, whose resource path begins with a
slash, is looked up from the top of the file system and not below the root.

Where the path leads to nothing, the source does not have the class; all other
obstacles are faults.
-/

namespace ClassLoom

/-- A class path directory in a file system. -/
structure Directory where
  /-- The file system, from its top. -/
  files : Tree
  /-- The path of the root of the class path. -/
  root : String

namespace Directory

/-- The class path directory at `root`, with the given files and, where there is
no data, directories made below it, in order. -/
def ofItems (files : Tree) (root : String) (items : List (String × Option Bytes)) :
    Except IoFault Directory := do
  let files ← items.foldlM (fun files (path, item) => files.make (Path.join root path) item) files
  return ⟨files, root⟩

/-- The path of the file of a class. -/
def path (d : Directory) (name : ClassName) : String :=
  Path.join d.root name.resourcePath

/-- The bytes of a class. -/
def find (d : Directory) (name : ClassName) : SourceAnswer :=
  match d.files.read (d.path name) with
  | .ok data => .ok (some data)
  | .error .notFound => .ok none
  | .error fault => .error fault

/-- The directory as a source. -/
def toSource {σ : Type} (d : Directory) : Source σ :=
  .ofAnswers d.find

end Directory

end ClassLoom
