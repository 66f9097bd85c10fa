import ClassLoom.Guard
import ClassLoom.Service.Basic

/-!
# Transforming passes

Loading a class through a service finds its bytes and, unless the class is
exempt, passes them through the delegated transformers. A transformer may load
other classes while it runs, which starts a pass inside the pass. The guard
counts the passes under way. A pass that is one too deep runs no transformer: it
gives the bytes as they were found, and the guard's flag stays up to tell on the
transformer that caused it. When such a transformer returns it is demoted: it is
excluded by name, and no pass under way or to come gets to see it in a list of
delegated transformers that is built from then on.

A pass runs the list of delegated transformers as it was when the pass started.

Nesting is bounded by the guard and not by the transformers: each pass inside a
pass has less room, and a pass without room runs no transformer. `Pass.load`
recurses on the room that is left. Starting with one more than the guard's
capacity, it gets to the pass that is too deep before the room is used up.
-/

namespace ClassLoom

/-- A service at work: its state, the memory of its transformers, and a chain
that was set aside. -/
structure Session (σ : Type) where
  service : Service σ
  memory : σ
  held : Option (List (Transformer σ))

/-- An action on a session. It may give up without a result when requests nest
too deep. -/
abbrev SessionM (σ : Type) := StateT (Session σ) Option

/-- What happens in a pass. -/
inductive Event (σ : Type) where
  /-- A pass starts; it is this deep. -/
  | entered (depth : Nat)
  /-- A pass ends; what is left is this deep. -/
  | left (depth : Nat)
  /-- A transformer is called on a class by a pass that is this deep. -/
  | calling (transformer : String) (depth : Nat) (c : Class)
  /-- A call ends. -/
  | called (transformer : String) (depth : Nat)
  /-- A transformer of a pass that is this deep asks for a class, at this point of
  the session. -/
  | loading (name : String) (depth : Nat) (session : Session σ)
  /-- A transformer is demoted. -/
  | demoted (transformer : String)

/-- A session with passes under way. -/
structure Pass (σ : Type) where
  session : Session σ
  guard : Guard
  /-- What has happened since the first of the passes started, the latest first. -/
  events : List (Event σ)

/-- An action within a pass. -/
abbrev PassM (σ : Type) := StateT (Pass σ) Option

namespace Session

variable {σ : Type}

/-- Something that reads the service and changes the memory only. -/
def withMemory {α : Type} (act : Service σ → StateM σ α) : SessionM σ α := fun s =>
  let (a, memory) := act s.service s.memory
  some (a, { s with memory })

/-- Changes the service. -/
def modifyService (change : Service σ → Service σ) : SessionM σ Unit :=
  modify fun s => { s with service := change s.service }

/-- The delegated transformers. -/
def delegated : SessionM σ (List (Transformer σ)) := fun s =>
  let (ts, service) := s.service.delegated
  some (ts, { s with service })

/-- Gives the memory. -/
def fetch : SessionM σ σ := do return (← get).memory

/-- Takes a new memory. -/
def store (memory : σ) : SessionM σ Unit :=
  modify fun s => { s with memory }

end Session

namespace Pass

variable {σ : Type}

/-- An action on the session, within a pass. -/
def onSession {α : Type} (act : SessionM σ α) : PassM σ α := fun p =>
  (act p.session).map fun (a, session) => (a, { p with session })

/-- Changes the guard. -/
def modifyGuard (change : Guard → Guard) : PassM σ Unit :=
  modify fun p => { p with guard := change p.guard }

/-- Notes an event, given how deep the pass is. -/
def note (event : Nat → Event σ) : PassM σ Unit :=
  modify fun p => { p with events := event p.guard.depth :: p.events }

/-- Notes that a class is asked for, and the session as it is then. -/
def noteLoading (name : String) : PassM σ Unit :=
  modify fun p => { p with events := .loading name p.guard.depth p.session :: p.events }

/-- The host of transformers within a pass: classes are loaded by `load`, and the
service answers by `answer`. -/
def host (load : String → PassM σ (Except PipelineError Bytes))
    (answer : Request σ → SessionM σ Reply) : Host σ (PassM σ) where
  calling t _ c := note fun depth => .calling t.name depth c
  called t := note fun depth => .called t.name depth
  load name := do
    noteLoading name
    load name
  ask request := onSession (answer request)
  fetch := onSession Session.fetch
  store memory := onSession (Session.store memory)

/-- Demotes a transformer if the flag is up, and lowers the flag. -/
def settle (t : Transformer σ) : PassM σ Unit := do
  if (← get).guard.raised then
    onSession (Session.modifyService (·.demote t.name))
    note fun _ => .demoted t.name
    modifyGuard Guard.clear

/-- Runs one transformer of a pass and settles what it caused. -/
def runOne (host : Host σ (PassM σ)) (options : WriterOptions) (context : Context)
    (t : Transformer σ) (bytes : Bytes) : PassM σ Applied := do
  modifyGuard Guard.clear
  let result ← t.apply host options context bytes
  settle t
  return result

/-- Runs the transformers of a pass, up to the first veto or error. -/
def runAll (host : Host σ (PassM σ)) (options : WriterOptions) (context : Context) :
    List (Transformer σ) → Bytes → PassM σ Applied
  | [], bytes => pure (.ok (some bytes))
  | t :: ts, bytes => do
    match ← runOne host options context t bytes with
    | .ok (some output) => runAll host options context ts output
    | final => pure final

/-- The body of a pass: nothing is run if the pass is too deep. -/
def body (host : Host σ (PassM σ)) (f : Found) : PassM σ Applied := do
  if (← get).guard.isOver then
    return .ok (some f.bytes)
  else
    let ts ← onSession Session.delegated
    runAll host (← get).session.service.options f.context ts f.bytes

/-- Passes a class through the transformers, as a pass of its own. -/
def run (host : Host σ (PassM σ)) (f : Found) : PassM σ Applied := do
  modifyGuard Guard.push
  note .entered
  let result ← body host f
  modifyGuard Guard.leave
  note .left
  return result

/-- What a pass over a class means for whoever asked for the class: a veto means
that there is no such class. -/
def answerOf (f : Found) : Applied → Except PipelineError Bytes
  | .ok (some bytes) => .ok bytes
  | .ok none => .error (.notFound f.requested.dotted)
  | .error error => .error error

/-- Finds a class and passes it through the transformers unless it is exempt. -/
def loadWith (host : Host σ (PassM σ)) (name : String) : PassM σ (Except PipelineError Bytes) := do
  match ← onSession (Session.withMemory (·.find name)) with
  | .error error => return .error error
  | .ok f =>
    if (← get).session.service.isExempt f then
      return .ok f.bytes
    else
      return answerOf f (← run host f)

/-- Loads a class where passes have so much room to nest. -/
def load (answer : Request σ → SessionM σ Reply) :
    Nat → String → PassM σ (Except PipelineError Bytes)
  | 0, _ => failure
  | room + 1, name => loadWith (host (load answer room) answer) name

/-- The start of a load: no pass is under way. -/
def start (s : Session σ) : Pass σ :=
  ⟨s, Guard.new s.service.config.reentranceDepth, []⟩

end Pass

/-- The transformed bytes of a class. -/
def Session.loadBytes {σ : Type} (answer : Request σ → SessionM σ Reply) (name : String) :
    SessionM σ (Except PipelineError Bytes) := fun s =>
  let room := s.service.config.reentranceDepth + 1
  (Pass.load answer room name (Pass.start s)).map fun (result, p) => (result, p.session)

end ClassLoom
