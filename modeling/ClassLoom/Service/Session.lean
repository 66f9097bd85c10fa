import ClassLoom.Service.Describe
import ClassLoom.Service.Pass

/-!
# Requests to a service

`Session.answer` says what each request does to a session and what the reply is.
Several requests run transformers, and a transformer may send requests of its own
to the service that owns it. Each of these starts afresh: a load has a new guard
and does not count as nested in the passes that are under way. So nothing but
the transformers bounds how deep requests nest, and `Session.perform` answers
requests down to a given depth and gives up beyond it.
-/

namespace ClassLoom

variable {σ : Type}

/-- A reply that may be a failure instead. -/
def Reply.ofExcept {α : Type} (reply : α → Reply) : Except PipelineError α → Reply
  | .ok a => reply a
  | .error error => .failed error

/-- The reply that names transformers. -/
def Reply.names (ts : List (Transformer σ)) : Reply :=
  .texts (ts.map Transformer.name)

namespace Session

/-- The host of transformers that a service runs outside of any pass: there is
nothing to load from, and the service answers. -/
def host (answer : Request σ → SessionM σ Reply) : Host σ (SessionM σ) where
  calling _ _ _ := pure ()
  called _ := pure ()
  load name := pure (.error (nothingToLoad name))
  ask := answer
  fetch := Session.fetch
  store := Session.store

/-- Applies transformers as a chain under the present exclusions. -/
def applyTransformers (answer : Request σ → SessionM σ Reply) (ts : List (Transformer σ)) :
    Application (SessionM σ) := fun bytes name => do
  ((← get).service.chainOf ts).applyWith (host answer) bytes name

/-- Something about the service. -/
def reading {α : Type} (view : Service σ → α) : SessionM σ α := do
  return view (← get).service

/-- A change of the service, after which it is done. -/
def changing (change : Service σ → Service σ) : SessionM σ Reply := do
  modifyService change
  return .done

/-- The bytes of a class, transformed or raw. -/
def classBytes (answer : Request σ → SessionM σ Reply) (name : String) (run : Bool) :
    SessionM σ (Except PipelineError Bytes) :=
  if run then loadBytes answer name else withMemory (·.rawBytes name)

/-- The class whose class file was provided for `name`. -/
def decodeProvided (name : String) (bytes : Bytes) : Except PipelineError Class :=
  (Class.decode bytes).mapError (.decode (ClassName.of name).dotted)

/-- Registers a prefix behind the back of the delegation cache. -/
def excludeDirect (kind : ExclusionKind) (start : String) : SessionM σ Bool := fun s =>
  let (isNew, service) := s.service.excludeDirect kind start
  some (isNew, { s with service })

/-- Answers a request, with `answer` for the requests of transformers that run on
the way. -/
def answerWith (answer : Request σ → SessionM σ Reply) : Request σ → SessionM σ Reply
  | .register t => changing (·.register t)
  | .transformers => return .names (← reading Service.registry)
  | .addSource source => changing (·.addSource source)
  | .delegated => return .names (← delegated)
  | .state => return .state (← reading Service.delegationState)
  | .exclude kind start => changing (·.exclude kind start)
  | .excludeDirect kind start => return .flag (← excludeDirect kind start)
  | .excludeTransformer name => changing (·.excludeTransformer name)
  | .beginPhase => changing Service.beginPhase
  | .demoted => return .texts (← reading Service.demoted)
  | .prefixes kind => return .texts (← reading (·.exclusions.prefixes kind))
  | .generation => return .number (← reading (·.exclusions.generation))
  | .restrictions name => return .text (← reading (·.exclusions.restrictions name))
  | .unmap name => return .text (← withMemory (·.unmap (ClassName.of name))).dotted
  | .classBytes name run => return .ofExcept .bytes (← classBytes answer name run)
  | .decodedClass name run => do
    let provided ← classBytes answer name run
    return .ofExcept .decoded (provided.bind (decodeProvided name))
  | .markLoaded name => changing fun s => { s with exclusions := s.exclusions.markLoaded name }
  | .isLoaded name => return .flag (← reading (·.exclusions.isLoaded name))
  | .markInvalid name => changing fun s => { s with exclusions := s.exclusions.markInvalid name }
  | .isInvalid name => return .flag (← reading (·.exclusions.isInvalid name))
  | .applyChain bytes name => do
    let ts ← delegated
    return .ofExcept .applied (← applyTransformers answer ts bytes (ClassName.of name))
  | .holdChain => do
    let ts ← delegated
    modify fun s => { s with held := some ts }
    return .names ts
  | .applyHeld bytes name => do
    match (← get).held with
    | some ts => return .ofExcept .applied (← applyTransformers answer ts bytes (ClassName.of name))
    | none => return .done
  | .transformArchive folder file => do
    let ts ← delegated
    let (result, after) ← folder.transform (applyTransformers answer ts) file
    return .archived result folder after
  | .config => return .config (← reading Service.config)
  | .describe => return .text (← reading Service.describe)

/-- Answers a request, as long as requests do not nest deeper than `depth`. -/
def perform : Nat → Request σ → SessionM σ Reply
  | 0, _ => failure
  | depth + 1, request => answerWith (perform depth) request

end Session

end ClassLoom
