import ClassLoom.Chain
import ClassLoom.Delegation
import ClassLoom.Source

/-!
# The state of a service

A service owns everything that the class loader it works for has registered: the
transformers, the exclusions, the class sources, and the cache of delegated
transformers. This module holds the state and the operations that run no
transformer. Looking up a class does not change the service; asking for the
delegated transformers may fill the cache.

Excluding a transformer by name always discards the cached list. A transform
prefix that is registered elsewhere makes the cache stale through the generation
of the exclusions, whether or not anybody discards it.
-/

namespace ClassLoom

/-- A pipeline that works for one class loader. -/
structure Service (σ : Type) where
  config : Config
  /-- How classes are encoded. -/
  options : WriterOptions
  /-- All transformers, in the order of their registration. -/
  registry : List (Transformer σ)
  exclusions : Exclusions
  delegation : Delegation σ
  /-- The class sources, in the order in which they are asked. -/
  sources : List (Source σ)
  /-- The names of the demoted transformers, in the order of their demotion. -/
  demoted : List String

/-- A class that some source has. -/
structure Found where
  /-- The name under which the class is stored. -/
  raw : ClassName
  /-- The name under which the class was asked for. -/
  requested : ClassName
  bytes : Bytes
  deriving DecidableEq

/-- The context of transforming a class that was found. -/
def Found.context (f : Found) : Context := ⟨f.raw, f.requested⟩

namespace Service

variable {σ : Type}

/-- A service with a configuration, valid or not. The configured prefixes are
registered, and nothing else is. -/
def new (config : Config) : Service σ where
  config := config
  options := ⟨config.computeMaxs⟩
  registry := []
  exclusions :=
    (Exclusions.empty.excludeAll .load config.loadExclusions).excludeAll .transform
      config.transformExclusions
  delegation := .unbuilt
  sources := []
  demoted := []

/-- A service with a valid configuration. -/
def ofConfig (config : Config) : Except ConfigError (Service σ) := do
  config.validate
  return new config

/-! ## Registration -/

/-- Registers a transformer after all others. The cached list stays as it is. -/
def register (s : Service σ) (t : Transformer σ) : Service σ :=
  { s with registry := s.registry ++ [t] }

/-- Adds a source after all others. -/
def addSource (s : Service σ) (source : Source σ) : Service σ :=
  { s with sources := s.sources ++ [source] }

/-! ## Delegation -/

/-- The delegated transformers. -/
def delegated (s : Service σ) : List (Transformer σ) × Service σ :=
  let (ts, d) := s.delegation.get s.registry s.exclusions
  (ts, { s with delegation := d })

/-- Whether a current list of delegated transformers is cached. -/
def delegationState (s : Service σ) : DelegationState :=
  s.delegation.state s.exclusions

/-- Discards the cached list. -/
def invalidate (s : Service σ) : Service σ :=
  { s with delegation := s.delegation.invalidate }

/-- Registers an exclusion prefix directly with the exclusions, and tells whether
it was new. -/
def excludeDirect (s : Service σ) (kind : ExclusionKind) (start : String) : Bool × Service σ :=
  let (isNew, e) := s.exclusions.exclude kind start
  (isNew, { s with exclusions := e })

/-- Registers an exclusion prefix. A new transform prefix discards the cached
list. -/
def exclude (s : Service σ) (kind : ExclusionKind) (start : String) : Service σ :=
  let (isNew, s) := s.excludeDirect kind start
  if isNew && kind = .transform then s.invalidate else s

/-- Excludes the transformers whose names begin with `name`. -/
def excludeTransformer (s : Service σ) (name : String) : Service σ :=
  (s.excludeDirect .transform name).2.invalidate

/-- Crosses a phase boundary. -/
def beginPhase (s : Service σ) : Service σ := s.invalidate

/-- Excludes a transformer that turned out to be re-entrant, for good. -/
def demote (s : Service σ) (name : String) : Service σ :=
  let s := s.excludeTransformer name
  { s with demoted := s.demoted ++ [name] }

/-- The chain of the given transformers under the codec and the exclusions of the
service. -/
def chainOf (s : Service σ) (ts : List (Transformer σ)) : Chain σ :=
  ⟨ts, s.options, some s.exclusions⟩

/-! ## Class data -/

/-- The remapper that decides: that of the last transformer which has one. -/
def remapper? (s : Service σ) : Option (String → StateM σ String) :=
  s.registry.reverse.findSome? Transformer.remapper

/-- The name under which a class is stored. The remapper is asked with the dotted
spelling. -/
def unmap (s : Service σ) (name : ClassName) : StateM σ ClassName :=
  match s.remapper? with
  | some remap => do return ClassName.of (← remap name.dotted)
  | none => pure name

/-- The names under which the sources are asked for a class: its stored name and,
if that is another one, its requested name. -/
def candidates (raw requested : ClassName) : List ClassName :=
  if raw = requested then [raw] else [raw, requested]

/-- The questions that finding a class may take, in order. -/
def questions (s : Service σ) (raw requested : ClassName) : List (Question σ) :=
  (candidates raw requested).flatMap fun name => s.sources.map fun source => ⟨source, name⟩

/-- Finds a class. -/
def find (s : Service σ) (name : String) : StateM σ (Except PipelineError Found) := do
  let requested := ClassName.of name
  let raw ← s.unmap requested
  match ← Source.firstAnswer (s.questions raw requested) with
  | .error fault => return .error (.io fault)
  | .ok none => return .error (.notFound requested.dotted)
  | .ok (some bytes) => return .ok ⟨raw, requested, bytes⟩

/-- The bytes of a class as a source has them. -/
def rawBytes (s : Service σ) (name : String) : StateM σ (Except PipelineError Bytes) := do
  return (← s.find name).map Found.bytes

/-- Whether no transformer may touch a class that was found. -/
def isExempt (s : Service σ) (f : Found) : Bool :=
  s.exclusions.isClassExcluded f.raw.dotted (some f.requested.dotted)

end Service

end ClassLoom
