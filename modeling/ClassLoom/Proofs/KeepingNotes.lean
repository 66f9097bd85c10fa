import ClassLoom.Proofs.ServiceInStep

/-!
# Keeping notes

Which calls a service makes to transformers, remappers and sources, in which order and on what,
cannot be seen from its replies. But transformers, remappers and sources may use the memory as
they like, so each of them can write down that it was called. `Session.noting` has them all do
this, in a second component of the memory that nobody else looks at.

Whoever keeps notes does everything else as before. For a routine this is an induction, which
meets more steps on the side of the notes: before a call the memory is replaced, and storing a
memory has to bring the notes along (`Routine.inStep_noting`). For the service it is then a
likeness like any other (`quietly_sound`), so replies and memories are the same with notes and
without (`Session.notedResults_map`).
-/

namespace ClassLoom

variable {σ : Type}

/-! ## Notes -/

/-- A call of a source, of a transformer's remapper, or of a transformer, with what it is
called on. -/
inductive Contact (σ : Type) where
  | source (asked : Source σ) (name : ClassName)
  | remapper (transformer : String) (text : String)
  | transformer (name : String) (context : Context) (c : Class)

/-- A memory, and the notes beside it. -/
abbrev Noted (σ : Type) := σ × List (Contact σ)

/-- The memory stays as it is. -/
def Noted.add (n : Noted σ) (contact : Contact σ) : Noted σ :=
  (n.1, n.2 ++ [contact])

/-- Acts on the memory beside the notes. -/
def besideNotes {α : Type} (act : StateM σ α) : StateM (Noted σ) α := fun n =>
  let (a, memory) := act n.1
  (a, memory, n.2)

/-- The source notes what it is asked for. -/
def Source.noting (s : Source σ) : Source (Noted σ) where
  find name := do
    modify (·.add (.source s name))
    besideNotes (s.find name)

/-- The remapper of the transformer notes what it is asked for. -/
def notingRemapper (t : String) (remap : String → StateM σ String) (text : String) :
    StateM (Noted σ) String := do
  modify (·.add (.remapper t text))
  besideNotes (remap text)

mutual

/-- The routine among transformers and sources that keep notes. -/
def Routine.noting : Routine σ → Routine (Noted σ)
  | .finish outcome => .finish outcome
  | .load name resume => .load name fun result => (resume result).noting
  | .ask request resume => .ask request.noting fun reply => (resume reply).noting
  | .fetch resume => .fetch fun n => (resume n.1).noting
  | .store memory next => .fetch fun n => .store (memory, n.2) next.noting

/-- The transformer notes what it is called on, and so does its remapper. -/
def Transformer.noting : Transformer σ → Transformer (Noted σ)
  | ⟨name, isDelegationExcluded, remapper, transform⟩ =>
    { name
      isDelegationExcluded
      remapper := remapper.map (notingRemapper name)
      transform := fun context c =>
        .fetch fun n => .store (n.add (.transformer name context c)) (transform context c).noting }

/-- The transformer or source that the request brings keeps notes. -/
def Request.noting : Request σ → Request (Noted σ)
  | .register t => .register t.noting
  | .transformers => .transformers
  | .addSource s => .addSource s.noting
  | .delegated => .delegated
  | .state => .state
  | .exclude kind start => .exclude kind start
  | .excludeDirect kind start => .excludeDirect kind start
  | .excludeTransformer name => .excludeTransformer name
  | .beginPhase => .beginPhase
  | .demoted => .demoted
  | .prefixes kind => .prefixes kind
  | .generation => .generation
  | .restrictions name => .restrictions name
  | .unmap name => .unmap name
  | .classBytes name run => .classBytes name run
  | .decodedClass name run => .decodedClass name run
  | .markLoaded name => .markLoaded name
  | .isLoaded name => .isLoaded name
  | .markInvalid name => .markInvalid name
  | .isInvalid name => .isInvalid name
  | .applyChain bytes name => .applyChain bytes name
  | .holdChain => .holdChain
  | .applyHeld bytes name => .applyHeld bytes name
  | .transformArchive folder file => .transformArchive folder file
  | .config => .config
  | .describe => .describe

end

section Fields

variable (t : Transformer σ)

theorem Transformer.name_noting : t.noting.name = t.name := by
  cases t
  rfl

theorem Transformer.isDelegationExcluded_noting :
    t.noting.isDelegationExcluded = t.isDelegationExcluded := by
  cases t
  rfl

theorem Transformer.remapper_noting :
    t.noting.remapper = t.remapper.map (notingRemapper t.name) := by
  cases t
  rfl

theorem Transformer.transform_noting (context : Context) (c : Class) :
    t.noting.transform context c =
      .fetch fun n => .store (n.add (.transformer t.name context c))
        (t.transform context c).noting := by
  cases t
  rfl

end Fields

/-- The operation, with notes beside the memory. -/
def Operation.noting : Operation σ → Operation (Noted σ)
  | .ask request => .ask request.noting
  | .insert place name bytes => .insert (fun change n => (place change n.1, n.2)) name bytes

/-- All transformers and sources of the service keep notes. -/
def Service.noting (s : Service σ) : Service (Noted σ) :=
  { s with
    registry := s.registry.map Transformer.noting
    delegation := ⟨s.delegation.cached.map fun snapshot =>
      ⟨snapshot.generation, snapshot.transformers.map Transformer.noting⟩, s.delegation.builds⟩
    sources := s.sources.map Source.noting }

/-- All transformers and sources of the session keep notes, and there are none yet. -/
def Session.noting (s : Session σ) : Session (Noted σ) where
  service := s.service.noting
  memory := (s.memory, [])
  held := s.held.map fun ts => ts.map Transformer.noting

/-! ## Notes change nothing else -/

/-- Equal but for keeping notes. -/
def quietly : Likeness σ (Noted σ) where
  memory m n := m = n.1
  source s r := r = s.noting
  transformer t u := u = t.noting

theorem like_noting (request : Request σ) : Request.Like quietly request request.noting := by
  cases request with
  | register t => exact .register rfl
  | addSource s => exact .addSource rfl
  | _ => constructor <;> rfl

theorem Routine.inStep_noting (r : Routine σ) : r.InStep quietly r.noting := by
  intro α β S host host' h
  match r with
  | .finish outcome => exact tracks_pure rfl
  | .load name resume =>
      exact (h.load rfl).then fun result => (resume result).inStep_noting _ _ _ _ _ h
  | .ask request resume =>
      exact (h.ask (like_noting request)).then fun reply =>
        (resume reply).inStep_noting _ _ _ _ _ h
  | .fetch resume =>
      refine h.fetch.bind fun m n hmn => ?_
      obtain rfl : m = n.1 := hmn
      exact (resume n.1).inStep_noting _ _ _ _ _ h
  | .store memory next =>
      have hstored := (h.replace (m := memory) (f := fun n => (memory, n.2)) fun _ => rfl).then
        fun _ => next.inStep_noting _ _ _ _ _ h
      rw [bind_assoc] at hstored
      exact hstored

/-- A routine that follows a note. -/
theorem Routine.InStep.after_note {r : Routine σ} {r' : Routine (Noted σ)}
    (h : r.InStep quietly r') (contact : Contact σ) :
    r.InStep quietly (.fetch fun n => .store (n.add contact) r') := by
  intro α β S host host' hhost
  have hnoted := (hhost.renew (f := (·.add contact)) fun _ _ hmn => hmn).then fun _ =>
    h _ _ _ _ _ hhost
  rw [bind_assoc, pure_bind] at hnoted
  exact hnoted

theorem agrees_besideNotes {α : Type} (act : StateM σ α) :
    Agrees quietly.memory act (besideNotes act) := by
  intro m n hmn
  obtain rfl : m = n.1 := hmn
  exact ⟨rfl, rfl⟩

theorem agrees_self {α : Type} (act : StateM σ α) : Agrees Eq act act := by
  rintro m _ rfl
  exact ⟨rfl, rfl⟩

theorem agrees_after_note {α : Type} {x : StateM σ α} {y : StateM (Noted σ) α}
    (h : Agrees quietly.memory x y) (contact : Contact σ) :
    Agrees quietly.memory x (do modify (·.add contact); y) :=
  fun m n hmn => h m (n.add contact) hmn

theorem quietly_sound : (quietly (σ := σ)).Sound where
  name := by
    rintro t _ rfl
    exact t.name_noting.symm
  isDelegationExcluded := by
    rintro t _ rfl
    exact t.isDelegationExcluded_noting.symm
  remapper := by
    rintro t _ rfl
    rw [Transformer.remapper_noting]
    cases t.remapper with
    | none => exact .none
    | some remap => exact .some fun text => agrees_after_note (agrees_besideNotes _) _
  transform := by
    rintro t _ rfl context c
    rw [Transformer.transform_noting]
    exact (t.transform context c).inStep_noting.after_note _
  find := by
    rintro s _ rfl name
    exact agrees_after_note (agrees_besideNotes _) _

theorem like_noting_operation (op : Operation σ) : op.Like quietly op.noting := by
  cases op with
  | ask request => exact .ask (like_noting request)
  | insert place name bytes =>
      exact .insert bytes (fun change m n hmn => congrArg (place change) hmn) rfl

theorem forall₂_noting (ts : List (Transformer σ)) :
    List.Forall₂ quietly.transformer ts (ts.map Transformer.noting) := by
  rw [List.forall₂_map_right_iff, List.forall₂_same]
  exact fun _ _ => rfl

theorem like_noting_service (s : Service σ) : s.Like quietly s.noting where
  config := rfl
  options := rfl
  registry := forall₂_noting _
  exclusions := rfl
  delegation := by
    refine ⟨?_, rfl⟩
    show Option.Rel _ s.delegation.cached (s.delegation.cached.map _)
    cases s.delegation.cached with
    | none => exact .none
    | some snapshot => exact .some ⟨rfl, forall₂_noting _⟩
  sources := by
    show List.Forall₂ _ s.sources (s.sources.map Source.noting)
    rw [List.forall₂_map_right_iff, List.forall₂_same]
    exact fun _ _ => rfl
  demoted := rfl

theorem like_noting_session (s : Session σ) : s.Like quietly s.noting where
  service := like_noting_service s.service
  memory := rfl
  held := by
    show Option.Rel _ s.held (s.held.map _)
    cases s.held with
    | none => exact .none
    | some ts => exact .some (forall₂_noting ts)

namespace Session

/-- The replies and the memory when notes are kept, and the notes. -/
def notedResults (depth : Nat) (ops : List (Operation σ)) (s : Session σ) :
    Option (List Reply × Noted σ) :=
  results depth (ops.map Operation.noting) s.noting

/-- Keeping notes changes neither the replies nor the memory. -/
theorem notedResults_map (depth : Nat) (ops : List (Operation σ)) (s : Session σ) :
    (notedResults depth ops s).map (fun (replies, n) => (replies, n.1)) = results depth ops s := by
  have hops : List.Forall₂ (Operation.Like quietly) ops (ops.map Operation.noting) := by
    rw [List.forall₂_map_right_iff, List.forall₂_same]
    exact fun op _ => like_noting_operation op
  have hboth := results_like quietly_sound (like_noting_session s) hops depth
  unfold notedResults
  generalize results depth ops s = a, results depth _ s.noting = b at hboth
  cases hboth with
  | none => rfl
  | some hab => exact congrArg some (Prod.ext hab.1.symm hab.2.symm)

end Session

end ClassLoom
