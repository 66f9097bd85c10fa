import ClassLoom.Archive

/-!
# Folders, and what a file system does to them

A file is replaced in steps. Its new contents go to a temporary file beside it,
which is written, synchronised and then renamed over it, so the file itself
changes in one step or not at all. A file system may refuse any step, and a step
that is refused changes nothing. The temporary file does not outlive a replacement
that failed, unless its removal is refused as well.
-/

namespace ClassLoom

/-- What a name in a folder stands for. -/
inductive FolderItem where
  | file (contents : Container)
  | folder
  deriving DecidableEq

/-- A folder of files. -/
structure Folder where
  items : List (String × FolderItem)
  deriving DecidableEq

namespace Folder

/-- What a name stands for. -/
def item? (f : Folder) (name : String) : Option FolderItem :=
  f.items.lookup name

/-- The names in the folder, sorted. -/
def names (f : Folder) : List String :=
  (f.items.map Prod.fst).mergeSort fun a b => decide (a ≤ b)

/-- The contents of a file. -/
def read (f : Folder) (name : String) : Except IoFault Container :=
  match f.item? name with
  | some (.file contents) => .ok contents
  | some .folder => .error .isDirectory
  | none => .error .notFound

/-- The folder with the contents of a file replaced. -/
def write (f : Folder) (name : String) (contents : Container) : Folder :=
  ⟨f.items.map fun item => if item.1 = name then (name, .file contents) else item⟩

/-- The folder with a file of these contents, in the place of what had its name. -/
def put (f : Folder) (name : String) (contents : Container) : Folder :=
  if name ∈ f.items.map Prod.fst then f.write name contents
  else ⟨f.items ++ [(name, .file contents)]⟩

/-- The folder without a name. -/
def remove (f : Folder) (name : String) : Folder :=
  ⟨f.items.filter (·.1 ≠ name)⟩

/-- The folder with a file under another name, in the place of what had that name. -/
def rename (f : Folder) (old new : String) : Folder :=
  match f.read old with
  | .ok contents => (f.remove old).put new contents
  | .error _ => f

/-- A name that is longer than every name in the folder. -/
def unusedName (f : Folder) : String :=
  String.ofList (".tmp".toList ++ f.items.flatMap (·.1.toList))

theorem length_unusedName (f : Folder) :
    f.unusedName.toList.length = 4 + (f.items.flatMap (·.1.toList)).length := by
  unfold unusedName
  rw [String.toList_ofList, List.length_append]
  rfl

theorem unusedName_fresh (f : Folder) : f.unusedName ∉ f.items.map Prod.fst := by
  intro h
  obtain ⟨item, hitem, hname⟩ := List.mem_map.mp h
  have hpart : item.1.toList.Sublist (f.items.flatMap (·.1.toList)) := by
    rw [List.flatMap_def]
    exact List.sublist_flatten_of_mem (List.mem_map.mpr ⟨item, hitem, rfl⟩)
  have hlonger := f.length_unusedName
  rw [← hname] at hlonger
  have hle := hpart.length_le
  omega

end Folder

/-! ## File systems -/

/-- What a file system is called for. -/
inductive FileCall where
  | read
  | create
  | write
  | sync
  | rename
  | remove
  deriving DecidableEq, Repr

/-- A file system, by what it refuses and how it names temporary files. -/
structure FileSystem where
  /-- Why it refuses a call; none if it does as it is told. -/
  refuses : FileCall → Option IoFault
  /-- A name for a temporary file in a folder. -/
  temporary : Folder → String
  /-- Temporary files do not take the place of other files. -/
  temporary_fresh : ∀ f, temporary f ∉ f.items.map Prod.fst

/-- What is done in a folder, as far as the file system permits. -/
abbrev FileM (α : Type) := EStateM IoFault Folder α

namespace FileSystem

/-- The file system that refuses nothing. -/
def willing : FileSystem where
  refuses _ := none
  temporary := Folder.unusedName
  temporary_fresh := Folder.unusedName_fresh

/-- Calls the file system. What it permits takes effect on the folder. -/
def call (fs : FileSystem) (what : FileCall) (effect : Folder → Folder) : FileM Unit := fun f =>
  match fs.refuses what with
  | some fault => .error fault f
  | none => .ok () (effect f)

/-- The contents of a file. -/
def readFile (fs : FileSystem) (name : String) : FileM Container := do
  fs.call .read id
  match (← get).read name with
  | .ok contents => return contents
  | .error fault => throw fault

/-- Writes new contents to a temporary file and renames it over a file. -/
def commit (fs : FileSystem) (temporary name : String) (contents : Container) : FileM Unit := do
  fs.call .write (·.write temporary contents)
  fs.call .sync id
  fs.call .rename (·.rename temporary name)

/-- Removes a temporary file, or leaves it if that is refused. -/
def discard (fs : FileSystem) (temporary : String) : FileM Unit :=
  try fs.call .remove (·.remove temporary) catch _ => pure ()

/-- Replaces the contents of a file by way of a temporary file. -/
def replace (fs : FileSystem) (name : String) (contents : Container) : FileM Unit := do
  let temporary := fs.temporary (← get)
  fs.call .create (·.put temporary (.raw []))
  try fs.commit temporary name contents
  catch fault => do
    fs.discard temporary
    throw fault

end FileSystem

end ClassLoom
