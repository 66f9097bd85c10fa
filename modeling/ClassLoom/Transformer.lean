import ClassLoom.Archive.Transform
import ClassLoom.ClassFile.Layout
import ClassLoom.Config
import ClassLoom.Exclusion

/-!
# Transformers

A transformer edits one class at a time. While it does, it may ask for other
classes, talk to the service that owns it, and use a memory that all transformers
share. Its behaviour is a `Routine`: a finite tree whose nodes are these
questions and whose branches are the possible answers, ending in an `Outcome`.
A routine says what the transformer does and leaves open who answers.

Who answers is a `Host`. The same routine runs inside a pass of a service, where
asking for a class re-enters the service, and on its own, where there is nothing
to load from. `Routine.run` recurses on the tree, so running a routine ends
whenever its host answers.

What a routine may ask of a service includes registering another transformer, so
transformers, routines and requests are defined together. Answers to requests
are plain data.
-/

namespace ClassLoom

/-! ## What a transformer sees and decides -/

/-- What a transformer knows about the class that it edits. -/
structure Context where
  /-- The name under which the class is stored. -/
  name : ClassName
  /-- The name of the class at run time. -/
  transformedName : ClassName
  deriving DecidableEq

/-- The context of a class that is stored under its run-time name. -/
def Context.plain (name : ClassName) : Context := ⟨name, name⟩

/-- What a transformer decides about a class. -/
inductive Outcome where
  /-- The class goes on in this form. -/
  | keep (c : Class)
  /-- The class is vetoed. -/
  | drop
  /-- The transformer failed. -/
  | fail (cause : TransformError)

/-- Whether a list of delegated transformers is at hand. -/
inductive DelegationState where
  /-- The next access builds a list. -/
  | unbuilt
  /-- A current list is cached. -/
  | built
  deriving DecidableEq, Repr

/-- The name of the state. -/
def DelegationState.name : DelegationState → String
  | .unbuilt => "Unbuilt"
  | .built => "Built"

/-- What a service answers. -/
inductive Reply where
  /-- It is done. -/
  | done
  | flag (value : Bool)
  | number (value : Nat)
  | text (value : String)
  | texts (values : List String)
  | state (value : DelegationState)
  | bytes (value : Bytes)
  | decoded (value : Class)
  /-- What a chain made of a class; nothing if it was vetoed. -/
  | applied (value : Option Bytes)
  /-- How transforming the archive in a file went, and the folder before and after. -/
  | archived (result : Except PipelineError Report) (before after : Folder)
  | config (value : Config)
  /-- The pipeline failed. -/
  | failed (cause : PipelineError)
  /-- A source could not be opened. -/
  | unopened (cause : IoFault)
  /-- There is no service to answer. -/
  | noService

/-! ## Routines -/

mutual

/-- What a transformer does to a class, up to the answers to its questions. -/
inductive Routine (σ : Type) : Type where
  /-- Decides. -/
  | finish (outcome : Outcome)
  /-- Asks for the transformed bytes of another class. -/
  | load (name : String) (resume : Except PipelineError Bytes → Routine σ)
  /-- Asks the owning service for something. -/
  | ask (request : Request σ) (resume : Reply → Routine σ)
  /-- Looks into the memory. -/
  | fetch (resume : σ → Routine σ)
  /-- Replaces the memory. -/
  | store (memory : σ) (next : Routine σ)

/-- A unit that edits classes. -/
structure Transformer (σ : Type) : Type where
  /-- The name that errors and exclusions refer to. -/
  name : String
  /-- Whether the transformer opts out of delegated class data. -/
  isDelegationExcluded : Bool
  /-- Maps the dotted run-time name of a class back to its stored name, if
  the transformer offers that. -/
  remapper : Option (String → StateM σ String)
  /-- The edit. -/
  transform : Context → Class → Routine σ

/-- What can be asked of a service. -/
inductive Request (σ : Type) : Type where
  /-- Registers a transformer after all others. -/
  | register (t : Transformer σ)
  /-- The names of all transformers. -/
  | transformers
  /-- Adds a source after all others. -/
  | addSource (s : Source σ)
  /-- The names of the delegated transformers. -/
  | delegated
  /-- Whether a list of delegated transformers is cached. -/
  | state
  /-- Registers an exclusion prefix. -/
  | exclude (kind : ExclusionKind) (start : String)
  /-- Registers an exclusion prefix behind the back of the delegation cache, and
  tells whether it was new. -/
  | excludeDirect (kind : ExclusionKind) (start : String)
  /-- Excludes the transformers whose names begin with a text. -/
  | excludeTransformer (name : String)
  /-- Crosses a phase boundary. -/
  | beginPhase
  /-- The names of the demoted transformers. -/
  | demoted
  /-- The prefixes of a kind. -/
  | prefixes (kind : ExclusionKind)
  /-- The generation of the transform prefixes. -/
  | generation
  /-- The restrictions on a class. -/
  | restrictions (name : String)
  /-- The stored name of a class. -/
  | unmap (name : String)
  /-- The bytes of a class, transformed or raw. -/
  | classBytes (name : String) (run : Bool)
  /-- The structural form of a class, transformed or raw. -/
  | decodedClass (name : String) (run : Bool)
  | markLoaded (name : String)
  | isLoaded (name : String)
  | markInvalid (name : String)
  | isInvalid (name : String)
  /-- Applies the chain of delegated transformers. -/
  | applyChain (bytes : Bytes) (name : String)
  /-- Sets the chain of delegated transformers aside. -/
  | holdChain
  /-- Applies the chain that was set aside. -/
  | applyHeld (bytes : Bytes) (name : String)
  /-- Transforms the archive in a file of a folder. -/
  | transformArchive (folder : Folder) (file : String)
  | config
  /-- The service in text form, for diagnosis. -/
  | describe

end

/-! ## Hosts -/

/-- Whoever answers what routines ask, in some monad. -/
structure Host (σ : Type) (m : Type → Type) where
  /-- Is told of every call of a transformer before it starts. -/
  calling : Transformer σ → Context → Class → m Unit
  /-- Is told of every call of a transformer when it has ended. -/
  called : Transformer σ → m Unit
  /-- Provides the bytes of a class. -/
  load : String → m (Except PipelineError Bytes)
  /-- Answers for the service. -/
  ask : Request σ → m Reply
  /-- Gives the memory. -/
  fetch : m σ
  /-- Takes a new memory. -/
  store : σ → m Unit

/-- Runs a routine. -/
def Routine.run {σ : Type} {m : Type → Type} [Monad m] (host : Host σ m) : Routine σ → m Outcome
  | .finish outcome => pure outcome
  | .load name resume => do
    let answer ← host.load name
    (resume answer).run host
  | .ask request resume => do
    let reply ← host.ask request
    (resume reply).run host
  | .fetch resume => do
    let memory ← host.fetch
    (resume memory).run host
  | .store memory next => do
    host.store memory
    next.run host

/-- The error of asking for a class where there is nothing to load from. -/
def nothingToLoad (name : String) : PipelineError :=
  .notFound (ClassName.of name).dotted

/-- The host of transformers that run on their own: there is a memory, and no
service. -/
def Host.alone {σ : Type} : Host σ (StateM σ) where
  calling _ _ _ := pure ()
  called _ := pure ()
  load name := pure (.error (nothingToLoad name))
  ask _ := pure .noService
  fetch := get
  store := set

end ClassLoom
