import ClassLoom.ClassName
import ClassLoom.Error

/-!
# Class sources

A source is asked for the raw bytes of a class and has them, does not have them,
or fails. Failing is not the same as not having: whoever asks several sources
goes on to the next one only after a miss.

A source may remember what it was asked. The memory is the caller's, of whatever
type `σ`, and it is passed along with the question.
-/

namespace ClassLoom

/-- What a source answers: the bytes, a miss, or a fault. -/
abbrev SourceAnswer := Except IoFault (Option Bytes)

/-- A provider of raw class bytes. -/
structure Source (σ : Type) where
  /-- The raw bytes of a class, if the source has it. -/
  find : ClassName → StateM σ SourceAnswer

/-- A question to one of several sources. -/
structure Question (σ : Type) where
  source : Source σ
  name : ClassName

namespace Source

variable {σ : Type}

/-- A source whose answers depend on the question only. -/
def ofAnswers (answer : ClassName → SourceAnswer) : Source σ where
  find name := pure (answer name)

/-- A source that always fails. -/
def failing (text : String) : Source σ :=
  ofAnswers fun _ => .error (.other text)

/-- Asks questions in order until one is not answered with a miss. -/
def firstAnswer : List (Question σ) → StateM σ SourceAnswer
  | [] => pure (.ok none)
  | q :: qs => do
    match ← q.source.find q.name with
    | .ok none => firstAnswer qs
    | answer => pure answer

end Source

/-! ## Classes in memory -/

/-- Classes kept in memory. A class that is added again hides what it was before. -/
structure ClassStore where
  classes : List (ClassName × Bytes)

namespace ClassStore

/-- No classes. -/
def empty : ClassStore := ⟨[]⟩

/-- Adds or replaces a class. -/
def insert (s : ClassStore) (name : String) (bytes : Bytes) : ClassStore :=
  ⟨(ClassName.of name, bytes) :: s.classes⟩

/-- The bytes of a class. -/
def find? (s : ClassStore) (name : ClassName) : Option Bytes :=
  s.classes.lookup name

/-- The classes as a source. -/
def toSource {σ : Type} (s : ClassStore) : Source σ :=
  .ofAnswers fun name => .ok (s.find? name)

end ClassStore

end ClassLoom
