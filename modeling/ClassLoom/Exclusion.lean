import ClassLoom.ClassName

/-!
# Exclusions

Two sets of prefixes say what must be left alone: classes that the loader must
not intercept and classes that transformers must not touch. A transform prefix
also excludes the transformers whose names begin with it. Prefixes are kept in
the order in which they were registered, normalized, and each at most once.

The generation counts the transform prefixes registered so far. Whoever caches
something that depends on them compares generations to see whether the cache is
still current.

The registry also keeps which classes the loader has defined and which it must
never define. These two sets are bookkeeping: nothing here depends on them.
-/

namespace ClassLoom

/-- What a prefix excludes classes from. -/
inductive ExclusionKind where
  /-- The loader must not intercept the class. -/
  | load
  /-- Transformers must not touch the class. -/
  | transform
  deriving DecidableEq, Repr

namespace ExclusionKind

/-- The short name of the kind. -/
def name : ExclusionKind → String
  | .load => "load"
  | .transform => "transform"

/-- The label of the kind in a list of restrictions. -/
def label : ExclusionKind → String
  | .load => "PACKAGE_CLASSLOADER_EXCLUSION"
  | .transform => "PACKAGE_TRANSFORMER_EXCLUSION"

/-- All kinds, in the order in which restrictions are listed. -/
def all : List ExclusionKind := [.load, .transform]

end ExclusionKind

/-- The prefix sets and the class bookkeeping. -/
structure Exclusions where
  /-- The load prefixes, in the order of their registration. -/
  load : List String
  /-- The transform prefixes, in the order of their registration. -/
  transform : List String
  /-- How many transform prefixes have been registered. -/
  generation : Nat
  /-- The classes that the loader has defined. -/
  loaded : List ClassName
  /-- The classes that the loader must never define. -/
  invalid : List ClassName

namespace Exclusions

/-- The registry in which nothing is registered. -/
def empty : Exclusions := ⟨[], [], 0, [], []⟩

/-- The registered prefixes of a kind, in the order of their registration. -/
def prefixes (e : Exclusions) : ExclusionKind → List String
  | .load => e.load
  | .transform => e.transform

/-- Registers a prefix. The answer tells whether it was new. -/
def exclude (e : Exclusions) (kind : ExclusionKind) (text : String) : Bool × Exclusions :=
  let start := normalize text
  if (e.prefixes kind).contains start then
    (false, e)
  else
    match kind with
    | .load => (true, { e with load := e.load ++ [start] })
    | .transform =>
      (true, { e with transform := e.transform ++ [start], generation := e.generation + 1 })

/-- Registers several prefixes of one kind. -/
def excludeAll (e : Exclusions) (kind : ExclusionKind) (texts : List String) : Exclusions :=
  texts.foldl (fun e text => (e.exclude kind text).2) e

/-- Whether `name`, or `transformed` if it is given, begins with a prefix of the
kind. -/
def isExcluded (e : Exclusions) (kind : ExclusionKind) (name : String)
    (transformed : Option String) : Bool :=
  (e.prefixes kind).any fun start =>
    startsWith (normalize name) start
      || transformed.any fun other => startsWith (normalize other) start

/-- Whether either name is excluded from interception by the loader. -/
def isLoadExcluded (e : Exclusions) (name : String) (transformed : Option String) : Bool :=
  e.isExcluded .load name transformed

/-- Whether either name is excluded from transformation. -/
def isTransformExcluded (e : Exclusions) (name : String) (transformed : Option String) : Bool :=
  e.isExcluded .transform name transformed

/-- Whether either name is excluded from anything. -/
def isClassExcluded (e : Exclusions) (name : String) (transformed : Option String) : Bool :=
  e.isLoadExcluded name transformed || e.isTransformExcluded name transformed

/-- The labels of the kinds that `name` is excluded under, joined by commas. -/
def restrictions (e : Exclusions) (name : String) : String :=
  ",".intercalate
    ((ExclusionKind.all.filter fun kind => e.isExcluded kind name none).map ExclusionKind.label)

/-- Records that the loader has defined a class. -/
def markLoaded (e : Exclusions) (name : String) : Exclusions :=
  { e with loaded := e.loaded.insert (ClassName.of name) }

/-- Whether the loader has defined a class. -/
def isLoaded (e : Exclusions) (name : String) : Bool :=
  e.loaded.contains (ClassName.of name)

/-- Forbids the loader to define a class. -/
def markInvalid (e : Exclusions) (name : String) : Exclusions :=
  { e with invalid := e.invalid.insert (ClassName.of name) }

/-- Whether the loader must never define a class. -/
def isInvalid (e : Exclusions) (name : String) : Bool :=
  e.invalid.contains (ClassName.of name)

end Exclusions

end ClassLoom
