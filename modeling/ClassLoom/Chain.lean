import ClassLoom.ClassFile.Reading
import ClassLoom.ClassFile.Verify
import ClassLoom.Transformer

/-!
# Chains of transformers

A chain applies its transformers to the bytes of a class one after the other.
Between two of them the class is encoded and decoded again, so each transformer
sees what a reader of its predecessor's output would see, raised local slot
hints included.

The bytes that come in may be at fault: then the error says that the class could
not be decoded. What a transformer leaves behind is verified and encoded before
the next one looks at it, so a fault of a transformer is reported under its own
name. The first veto or error ends the chain.

Chains are written for any host, and `Chain.apply` runs one on its own.
-/

namespace ClassLoom

/-- The class whose class file is `bytes`, if it obeys the structural rules. -/
def Class.decodeValid (bytes : Bytes) : Except ClassFileError Class := do
  let c ← Class.decode bytes
  c.verify.mapError .invalid
  return c

/-- The class file of `c`, if it obeys the structural rules. -/
def Class.encodeValid (options : WriterOptions) (c : Class) : Except TransformError Bytes := do
  c.verify.mapError .invalid
  (c.encode options).mapError .encode

namespace Transformer

variable {σ : Type} {m : Type → Type} [Monad m]

/-- Puts the blame for a failure on the transformer. -/
def blame (t : Transformer σ) (name : ClassName) (cause : TransformError) : PipelineError :=
  .transform t.name name.dotted cause

/-- What an outcome comes to in terms of bytes. -/
def conclude (t : Transformer σ) (options : WriterOptions) (name : ClassName) : Outcome → Applied
  | .keep c => ((c.encodeValid options).mapError (t.blame name)).map some
  | .drop => .ok none
  | .fail cause => .error (t.blame name cause)

/-- Calls the transformer on a class. -/
def call (t : Transformer σ) (host : Host σ m) (context : Context) (c : Class) : m Outcome := do
  host.calling t context c
  let outcome ← (t.transform context c).run host
  host.called t
  return outcome

/-- Applies the transformer to the bytes of a class. -/
def apply (t : Transformer σ) (host : Host σ m) (options : WriterOptions) (context : Context)
    (bytes : Bytes) : m Applied :=
  match Class.decodeValid bytes with
  | .error cause => pure (.error (.decode context.name.dotted cause))
  | .ok c => do
    let outcome ← t.call host context c
    return t.conclude options context.name outcome

/-- Applies transformers one after the other, up to the first veto or error. -/
def applyAll (host : Host σ m) (options : WriterOptions) (context : Context) :
    List (Transformer σ) → Bytes → m Applied
  | [], bytes => pure (.ok (some bytes))
  | t :: ts, bytes => do
    match ← t.apply host options context bytes with
    | .ok (some output) => applyAll host options context ts output
    | final => pure final

end Transformer

/-- An ordered list of transformers with the way to encode classes and,
optionally, exclusions. -/
structure Chain (σ : Type) where
  transformers : List (Transformer σ)
  options : WriterOptions
  /-- Classes that are excluded from transformation here pass unchanged. -/
  exclusions : Option Exclusions

namespace Chain

variable {σ : Type}

/-- A chain that encodes in the usual way and has no exclusions. -/
def ofTransformers (ts : List (Transformer σ)) : Chain σ := ⟨ts, {}, none⟩

/-- Whether a class passes the chain unchanged whatever its bytes are. -/
def isExempt (chain : Chain σ) (name : ClassName) : Bool :=
  chain.transformers.isEmpty
    || chain.exclusions.any fun e => e.isTransformExcluded name.dotted (some name.dotted)

/-- Applies the chain to the bytes of a class, with any host. -/
def applyWith {m : Type → Type} [Monad m] (host : Host σ m) (chain : Chain σ) (bytes : Bytes)
    (name : ClassName) : m Applied :=
  if chain.isExempt name then
    pure (.ok (some bytes))
  else
    Transformer.applyAll host chain.options (.plain name) chain.transformers bytes

/-- Applies the chain to the bytes of a class, on its own. -/
def apply (chain : Chain σ) (bytes : Bytes) (name : String) : StateM σ Applied :=
  chain.applyWith .alone bytes (ClassName.of name)

end Chain

end ClassLoom
