import ClassLoom.ClassFile.Reading
import ClassLoom.ClassFile.Verify
import ClassLoom.Service.Session

/-!
# Scripted transformers

A transformer given as a list of actions: edits of the class, verdicts, loads of
other classes, and requests to the owning service. Each action may have a
condition on the class and on how often the transformer has been called. Names
are remapped by rules.

Scripted transformers share a memory. It counts the calls of each of them, so
each gets a number of its own when it is registered, and it keeps a journal of
what they saw and did.
-/

namespace ClassLoom.Script

/-! ## Memory -/

/-- What scripted transformers note down. -/
inductive Note where
  /-- A transformer was called on a class. -/
  | called (transformer : String) (context : Context) (className : String) (fields : Nat)
  /-- A class was encoded; its file has this many bytes. -/
  | encoded (length : Nat)
  /-- A class of this name was decoded. -/
  | decoded (className : String)
  /-- Another class was loaded. -/
  | loaded (bytes : Bytes)
  /-- Loading another class failed, and that did not matter. -/
  | ignored (cause : PipelineError)
  /-- The service replied to a request. -/
  | replied (reply : Reply)

/-- What scripted transformers share. -/
structure Memory where
  /-- For each transformer, by its number, how often it has been called. -/
  calls : List Nat
  /-- The notes, the latest first. -/
  journal : List Note

namespace Memory

/-- No transformers and no notes. -/
def empty : Memory := ⟨[], []⟩

/-- Assigns a number to a new transformer. -/
def enlist (m : Memory) : Nat × Memory :=
  (m.calls.length, { m with calls := m.calls ++ [0] })

/-- Counts a call, and gives its number; the first call has the number one. -/
def count (m : Memory) (id : Nat) : Nat × Memory :=
  let call := m.calls[id]?.getD 0 + 1
  (call, { m with calls := m.calls.set id call })

/-- Adds a note. -/
def note (m : Memory) (n : Note) : Memory :=
  { m with journal := n :: m.journal }

/-- Takes the notes out of the memory, the earliest first. -/
def takeNotes (m : Memory) : List Note × Memory :=
  (m.journal.reverse, { m with journal := [] })

end Memory

/-- Adds a note and goes on. -/
def noting (n : Note) (next : Routine Memory) : Routine Memory :=
  .fetch fun m => .store (m.note n) next

/-! ## Names -/

/-- A rule for remapping names. -/
inductive Rule where
  /-- Names that begin with `start` begin with `target` instead. -/
  | leading (start target : String)
  /-- The name `name` becomes `target`. -/
  | exact (name target : String)
  deriving DecidableEq, Repr

/-- What a rule makes of a name, if it applies. -/
def Rule.result? (name : String) : Rule → Option String
  | .leading start target =>
    if startsWith name start then
      some (target ++ String.ofList (name.toList.drop start.toList.length))
    else
      none
  | .exact whole target => if name = whole then some target else none

/-- What the first rule that applies makes of a name. -/
def remap (rules : List Rule) (name : String) : String :=
  (rules.findSome? (Rule.result? name)).getD name

/-! ## Actions -/

/-- What must hold for an action to be done. What is not given is not asked. -/
structure Condition where
  /-- The stored name of the class, dotted. -/
  className : Option String
  /-- The simple part of the stored name. -/
  simpleName : Option String
  /-- The run-time name of the class, dotted. -/
  transformedName : Option String
  /-- How often the transformer has been called, this call included. -/
  call : Option Nat
  /-- A field that the class has at this point. -/
  field : Option String
  deriving DecidableEq

/-- Whether the condition holds. -/
def Condition.holds (w : Condition) (context : Context) (call : Nat) (c : Class) : Bool :=
  w.className.all (· = context.name.dotted)
    && w.simpleName.all (· = context.name.simpleName)
    && w.transformedName.all (· = context.transformedName.dotted)
    && w.call.all (· = call)
    && w.field.all fun name => (c.field? name).isSome

/-- What to do about a class that could not be loaded. -/
inductive OnError where
  /-- Fail, and say that a lookup failed. -/
  | giveUp
  /-- Fail with the text of the error. -/
  | wrap
  /-- Note it down and go on. -/
  | ignore
  deriving DecidableEq, Repr

/-- Something to be done with the owning service. -/
inductive Step where
  /-- Gives a new transformer its number and registers it. -/
  | enlist (make : Nat → Transformer Memory)
  /-- Adds a source, unless it could not be opened. -/
  | addSource (opened : Except IoFault (Source Memory))
  /-- Sends a request. -/
  | request (r : Request Memory)

/-- Does a step and goes on with the reply. -/
def Step.followedBy (next : Reply → Routine Memory) : Step → Routine Memory
  | .enlist make => .fetch fun m =>
    .store m.enlist.2 (.ask (.register (make m.enlist.1)) next)
  | .addSource (.ok source) => .ask (.addSource source) next
  | .addSource (.error fault) => next (.unopened fault)
  | .request r => .ask r next

/-- Something that a scripted transformer does. -/
inductive Deed where
  | addField (f : Field)
  /-- Adds a field unless there is one of that name. -/
  | addFieldOnce (f : Field)
  /-- Removes all fields of a name. -/
  | removeField (name : String)
  | addMethod (m : Method)
  /-- Removes all methods of a name and descriptor. -/
  | removeMethod (name descriptor : String)
  /-- Replaces the body of the first method of a name and descriptor. -/
  | setCode (name descriptor : String) (code : Bytes)
  /-- Replaces the hint of the first method of a name and descriptor. -/
  | setLocals (name descriptor : String) (maxLocals : UInt16)
  | setName (name : String)
  | setSuper (name : Option String)
  | setAccess (access : UInt16)
  | setVersion (major minor : UInt16)
  | addInterface (name : String)
  | addAttribute (a : Attribute)
  /-- Adds a field whose name tells the hint of a method, if there is one. -/
  | recordLocals (name descriptor : String)
  /-- Adds an attribute that tells both names of the class. -/
  | recordContext
  /-- Vetoes the class. -/
  | drop
  | fail (text : String)
  | failOther (text : String)
  /-- Fails if the class breaks a structural rule. -/
  | verify
  /-- Fails if the class has no binary form, else notes how long it is. -/
  | encode
  /-- Fails if some data is no class file, else notes the name of the class. -/
  | decode (data : Bytes)
  | load (name : String) (onError : OnError)
  | service (step : Step)

/-- The field that tells the hint of a method. -/
def localsField (m : Method) : Field :=
  ⟨Access.isPrivate, s!"locals{m.maxLocals}", "I", []⟩

/-- The attribute that tells both names of the class. -/
def contextAttribute (context : Context) : Attribute :=
  ⟨"ctx", utf8 (context.name.dotted ++ "|" ++ context.transformedName.dotted)⟩

/-- The class with a field added. -/
def withField (c : Class) (f : Field) : Class :=
  { c with fields := c.fields ++ [f] }

/-- What the transformer does after a class could not be loaded. -/
def afterFailedLoad (onError : OnError) (cause : PipelineError) (next : Routine Memory) :
    Routine Memory :=
  match onError with
  | .giveUp => .finish (.fail (.lookup cause))
  | .wrap => .finish (.fail (.other cause.message))
  | .ignore => noting (.ignored cause) next

/-- Does a deed to a class and goes on with the class as it is afterwards. -/
def Deed.perform (context : Context) (c : Class) (next : Class → Routine Memory) :
    Deed → Routine Memory
  | .addField f => next (withField c f)
  | .addFieldOnce f => next (if (c.field? f.name).isSome then c else withField c f)
  | .removeField name => next { c with fields := c.fields.filter (·.name ≠ name) }
  | .addMethod m => next { c with methods := c.methods ++ [m] }
  | .removeMethod name descriptor =>
    next { c with methods := c.methods.filter fun m => !m.isNamed name descriptor }
  | .setCode name descriptor code => next (c.modifyMethod name descriptor ({ · with code }))
  | .setLocals name descriptor maxLocals =>
    next (c.modifyMethod name descriptor ({ · with maxLocals }))
  | .setName name => next { c with name }
  | .setSuper name => next { c with superName := name }
  | .setAccess access => next { c with access }
  | .setVersion major minor => next { c with majorVersion := major, minorVersion := minor }
  | .addInterface name => next { c with interfaces := c.interfaces ++ [name] }
  | .addAttribute a => next { c with attributes := c.attributes ++ [a] }
  | .recordLocals name descriptor =>
    match c.method? name descriptor with
    | some m => next (withField c (localsField m))
    | none => next c
  | .recordContext => next { c with attributes := c.attributes ++ [contextAttribute context] }
  | .drop => .finish .drop
  | .fail text => .finish (.fail (.failed text))
  | .failOther text => .finish (.fail (.other text))
  | .verify =>
    match c.verify with
    | .ok () => next c
    | .error cause => .finish (.fail (.invalid cause))
  | .encode =>
    match c.encode {} with
    | .ok bytes => noting (.encoded bytes.length) (next c)
    | .error cause => .finish (.fail (.encode cause))
  | .decode data =>
    match Class.decode data with
    | .ok other => noting (.decoded other.name) (next c)
    | .error cause => .finish (.fail (.encode cause))
  | .load name onError => .load name fun
    | .ok bytes => noting (.loaded bytes) (next c)
    | .error cause => afterFailedLoad onError cause (next c)
  | .service step => step.followedBy fun reply => noting (.replied reply) (next c)

/-- A deed with a condition. -/
structure Action where
  condition : Condition
  deed : Deed

/-- Does the actions in order, skipping those whose conditions do not hold. A
class that gets to the end is kept. -/
def performAll (context : Context) (call : Nat) : List Action → Class → Routine Memory
  | [], c => .finish (.keep c)
  | a :: as, c =>
    if a.condition.holds context call c then
      a.deed.perform context c (performAll context call as)
    else
      performAll context call as c

/-! ## Transformers -/

/-- The description of a scripted transformer. -/
structure Plan where
  name : String
  isDelegationExcluded : Bool
  /-- The rules of the remapper, if the transformer offers one. -/
  rules : Option (List Rule)
  actions : List Action

/-- What a scripted transformer does when it is called: it counts the call, notes
it down, and does its actions. -/
def Plan.transform (plan : Plan) (id : Nat) (context : Context) (c : Class) : Routine Memory :=
  .fetch fun m =>
    let (call, m) := m.count id
    .store (m.note (.called plan.name context c.name c.fields.length))
      (performAll context call plan.actions c)

/-- The scripted transformer with this number. -/
def Plan.toTransformer (plan : Plan) (id : Nat) : Transformer Memory where
  name := plan.name
  isDelegationExcluded := plan.isDelegationExcluded
  remapper := plan.rules.map fun rules name => pure (remap rules name)
  transform := plan.transform id

/-- Gives numbers to transformers and builds them. -/
def enlistAll (plans : List Plan) : List (Transformer Memory) × Memory :=
  (plans.zipIdx.map fun (plan, id) => plan.toTransformer id, ⟨plans.map fun _ => 0, []⟩)

/-! ## Sessions -/

/-- Does a step in a session. -/
def Step.perform (depth : Nat) : Step → SessionM Memory Reply
  | .enlist make => do
    let (id, memory) := (← Session.fetch).enlist
    Session.store memory
    Session.perform depth (.register (make id))
  | .addSource (.ok source) => Session.perform depth (.addSource source)
  | .addSource (.error fault) => return .unopened fault
  | .request r => Session.perform depth r

/-- A session of a service whose transformers are scripted. -/
def openSession (service : Service Memory) (plans : List Plan) (sources : List (Source Memory)) :
    Session Memory :=
  let (ts, memory) := enlistAll plans
  ⟨sources.foldl Service.addSource (ts.foldl Service.register service), memory, none⟩

/-- Does steps one after the other. For each there is the reply and what the
transformers noted down meanwhile; nothing if requests nested deeper than
`depth`. -/
def performSteps (depth : Nat) : List Step → Session Memory → Option (List (Reply × List Note))
  | [], _ => some []
  | step :: steps, s => do
    let (reply, s) ← step.perform depth s
    let (notes, memory) := s.memory.takeNotes
    let rest ← performSteps depth steps { s with memory }
    return (reply, notes) :: rest

end ClassLoom.Script
