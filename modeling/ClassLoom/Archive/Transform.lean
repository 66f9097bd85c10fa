import ClassLoom.Archive.Folder

/-!
# Transforming archives

An archive is transformed entry by entry, in order. Class files go through an
application of transformers, which gives new bytes, vetoes the class, or fails;
everything else is copied. What became of each entry is its `Fate`, and both the
new archive and the report are read off the list of fates.

A class file whose bytes cannot be decoded is copied unchanged. Any other failure
ends it all, and then there is no output: transforming a file in place
replaces the file only after every entry has been dealt with.
-/

namespace ClassLoom

/-- What became of an entry of a transformed archive. -/
inductive Fate where
  /-- The entry did not go through the transformers. -/
  | copied (e : Entry)
  /-- The entry holds what the transformers made of it. -/
  | transformed (e : Entry)
  /-- A transformer vetoed the class. -/
  | dropped (name : String)
  /-- The class could not be decoded and was copied unchanged. -/
  | undecodable (e : Entry)
  deriving DecidableEq

namespace Fate

/-- The entry of the new archive, if there is one. -/
def entry? : Fate → Option Entry
  | .copied e => some e
  | .transformed e => some e
  | .dropped _ => none
  | .undecodable e => some e

/-- The name of the entry, if it went through the transformers. -/
def transformed? : Fate → Option String
  | .transformed e => some e.name
  | _ => none

/-- The name of the entry, if it was vetoed. -/
def dropped? : Fate → Option String
  | .dropped name => some name
  | _ => none

/-- The name of the entry, if it could not be decoded. -/
def undecodable? : Fate → Option String
  | .undecodable e => some e.name
  | _ => none

/-- Whether the entry was copied without going through the transformers. -/
def isCopied : Fate → Bool
  | .copied _ => true
  | _ => false

end Fate

/-- What happened to the entries of a transformed archive. -/
structure Report where
  /-- The class files that hold new bytes, in order. -/
  transformed : List String
  /-- The class files that were vetoed and left out, in order. -/
  dropped : List String
  /-- The number of entries that were copied without going through the
  transformers. -/
  copied : Nat
  /-- The class files that could not be decoded and were copied, in order. -/
  undecodable : List String
  deriving DecidableEq, Repr

/-- The report on a list of fates. -/
def Report.ofFates (fates : List Fate) : Report where
  transformed := fates.filterMap Fate.transformed?
  dropped := fates.filterMap Fate.dropped?
  copied := fates.countP Fate.isCopied
  undecodable := fates.filterMap Fate.undecodable?

/-- What applying transformers to the bytes of a class may come to: new bytes, a
veto, or an error. -/
abbrev Applied := Except PipelineError (Option Bytes)

/-- A way of applying transformers to the bytes of a class. -/
abbrev Application (m : Type → Type) := Bytes → ClassName → m Applied

/-- Whether `part` occurs in `text`. -/
def occursIn (text part : List Char) : Bool :=
  part.isPrefixOf text ||
    match text with
    | [] => false
    | _ :: rest => occursIn rest part

namespace Entry

/-- Whether a path names a module or package descriptor. -/
def isDescriptor (name : String) : Bool :=
  occursIn name.toList "module-info".toList || occursIn name.toList "package-info".toList

/-- The class whose file the entry is; none if the entry is to be copied. -/
def className? (e : Entry) : Option ClassName :=
  if isDescriptor e.name || e.isDirectory then none else ClassName.ofResourcePath? e.name

/-- Transforms one entry. -/
def transform {m : Type → Type} [Monad m] (apply : Application m) (e : Entry) :
    ExceptT PipelineError m Fate :=
  match e.className? with
  | none => pure (.copied e.asRegular)
  | some name =>
    match e.read with
    | .error fault => throw (.io fault)
    | .ok bytes => do
      match ← (ExceptT.lift (apply bytes name) : ExceptT PipelineError m Applied) with
      | .ok (some output) => pure (.transformed { e.asRegular with data := output })
      | .ok none => pure (.dropped e.name)
      | .error error =>
        if error.isDecodeFailure then pure (.undecodable e.asRegular) else throw error

end Entry

namespace Archive

/-- The archive that a list of fates amounts to. Its comment is empty. -/
def ofFates (fates : List Fate) : Archive :=
  ⟨"", fates.filterMap Fate.entry?⟩

/-- Transforms an archive. -/
def transform {m : Type → Type} [Monad m] (apply : Application m) (a : Archive) :
    ExceptT PipelineError m (Archive × Report) := do
  let fates ← a.entries.mapM (Entry.transform apply)
  return (ofFates fates, .ofFates fates)

end Archive

/-- Transforms the archive that a container holds. -/
def Container.transform {m : Type → Type} [Monad m] (apply : Application m) (c : Container) :
    ExceptT PipelineError m (Archive × Report) :=
  match c.open? with
  | .error fault => throw (.archive fault)
  | .ok a => a.transform apply

namespace Folder

/-- Transforms the archive in a file of the folder, as far as the file system
permits. The new archive is complete before the folder is touched. -/
def transformOn {m : Type → Type} [Monad m] (fs : FileSystem) (apply : Application m) (f : Folder)
    (name : String) : m (Except PipelineError Report × Folder) :=
  match fs.readFile name f with
  | .error fault f => pure (.error (.io fault), f)
  | .ok contents f => do
    match ← (contents.transform apply).run with
    | .error error => pure (.error error, f)
    | .ok (output, report) =>
      match fs.replace name (.archive output) f with
      | .error fault f => pure (.error (.io fault), f)
      | .ok _ f => pure (.ok report, f)

/-- Transforms the archive in a file of the folder. If that fails the folder stays
as it is. -/
def transform {m : Type → Type} [Monad m] (apply : Application m) (f : Folder) (name : String) :
    m (Except PipelineError Report × Folder) :=
  f.transformOn .willing apply name

end Folder

end ClassLoom
