import ClassLoom.Proofs.ChainRun

/-!
# Chains without bytes

Between two transformers a chain encodes a class, decodes it again and verifies it
again. This file puts a pipeline beside it that does none of that: it decodes and
verifies what comes in, lets one transformer after the other edit the class in
memory, and encodes what is left at the end. After each edit it verifies the class,
makes sure that it can be encoded, and raises the local slot hints as the encoder
would, so that it fails where the chain fails and for the same reason.

The two agree as long as no transformer makes a class too new to be read again,
which is the one thing that only a decoder notices. The invariant that carries the
induction relates the bytes of the chain to the class in memory: the bytes decode
to the class, and once the first transformer is done the class is encoded as the
bytes.

That two runs return the same does not say that the transformers were shown the
same. So runs are also compared under a host that writes down every call.
-/

namespace ClassLoom

namespace Transformer

variable {σ : Type}

/-! ## The pipeline in memory -/

section Pipeline

variable {m : Type → Type} [Monad m]

/-- What an outcome comes to in memory: a class that obeys the structural rules
and can be encoded goes on as the encoder would write it. -/
def revise (t : Transformer σ) (options : WriterOptions) (name : ClassName) :
    Outcome → Except PipelineError (Option Class)
  | .keep c =>
    match c.encodeValid options with
    | .ok _ => .ok (some (options.prepare c))
    | .error cause => .error (t.blame name cause)
  | .drop => .ok none
  | .fail cause => .error (t.blame name cause)

/-- Lets transformers edit a class one after the other, up to the first veto or
error. -/
def editAll (host : Host σ m) (options : WriterOptions) (context : Context) :
    List (Transformer σ) → Class → m (Except PipelineError (Option Class))
  | [], c => pure (.ok (some c))
  | t :: ts, c => do
    let outcome ← t.call host context c
    match t.revise options context.name outcome with
    | .ok (some next) => editAll host options context ts next
    | final => pure final

/-- What a pipeline in memory ends with, in terms of bytes. A class that was
kept can be encoded, so the error of the last encoding stands for nothing that
happens. -/
def written (options : WriterOptions) (name : ClassName) :
    Except PipelineError (Option Class) → Applied
  | .ok (some c) => ((c.encode options).mapError (.decode name.dotted)).map some
  | .ok none => .ok none
  | .error error => .error error

end Pipeline

theorem revise_keep_of_ok (t : Transformer σ) {options : WriterOptions}
    (name : ClassName) {c : Class} {output : Bytes}
    (h : c.encodeValid options = .ok output) :
    t.revise options name (.keep c) = .ok (some (options.prepare c)) := by
  unfold revise
  dsimp only
  rw [h]

theorem revise_keep_of_error (t : Transformer σ) {options : WriterOptions}
    (name : ClassName) {c : Class} {cause : TransformError}
    (h : c.encodeValid options = .error cause) :
    t.revise options name (.keep c) = .error (t.blame name cause) := by
  unfold revise
  dsimp only
  rw [h]

variable {τ : Type} (host : Host σ (StateM τ)) (options : WriterOptions)
  (context : Context)

theorem editAll_of_call {t : Transformer σ} (ts : List (Transformer σ))
    {c : Class} {s s' : τ} {outcome : Outcome}
    (hcall : t.call host context c s = (outcome, s')) :
    editAll host options context (t :: ts) c s =
      match t.revise options context.name outcome with
      | .ok (some next) => editAll host options context ts next s'
      | final => (final, s') := by
  show (match t.revise options context.name (t.call host context c s).1 with
    | .ok (some next) => editAll host options context ts next
    | final => pure final) (t.call host context c s).2 = _
  rw [hcall]
  dsimp only
  cases t.revise options context.name outcome with
  | error error => rfl
  | ok next? =>
      cases next? with
      | none => rfl
      | some next => rfl

/-! ## The chain and the pipeline -/

/-- Applying transformers to bytes is editing the class that the bytes decode to
and writing the result. Without transformers nothing is written, so then the
class has to be encoded as the bytes already. -/
theorem applyAll_eq_written {ts : List (Transformer σ)} {bytes : Bytes}
    {c : Class} {s : τ} (hbytes : Class.decodeValid bytes = .ok c)
    (hlast : ts = [] → c.encode options = .ok bytes)
    (hknown : ∀ last after, Leaves host options context ts bytes s last after →
      last.majorVersion ≤ Class.maxMajorVersion) :
    applyAll host options context ts bytes s =
      (written options context.name (editAll host options context ts c s).1,
        (editAll host options context ts c s).2) := by
  -- The bytes and the class change together: each step has to hand on bytes
  -- that decode to the class in memory, and that class written once more has to
  -- be the same bytes.
  induction ts generalizing bytes c s with
  | nil =>
      show (Except.ok (some bytes), s) =
        (((c.encode options).mapError _).map some, s)
      rw [hlast rfl]
      rfl
  | cons t ts ih =>
      obtain ⟨outcome, s', hcall⟩ := t.exists_call host context c s
      rw [applyAll_of_call host options context ts hbytes hcall,
        editAll_of_call host options context ts hcall]
      cases outcome with
      | keep kept =>
          cases hencode : kept.encodeValid options with
          | error cause =>
              rw [t.conclude_keep_of_error context.name hencode,
                t.revise_keep_of_error context.name hencode]
              rfl
          | ok output =>
              have hle := hknown kept ts (.here hbytes hcall)
              have hread := Class.decodeValid_of_encodeValid hencode
              rw [if_pos hle] at hread
              have hwrite :
                  (options.prepare kept).encode options = .ok output := by
                rw [Class.encode_prepare]
                exact (Class.encodeValid_eq_ok.mp hencode).2
              rw [t.conclude_keep_of_ok context.name hencode,
                t.revise_keep_of_ok context.name hencode]
              refine ih hread (fun _ => hwrite) ?_
              intro last after hlater
              exact hknown last after (.later hbytes hcall hencode hlater)
      | drop => rfl
      | fail cause => rfl

end Transformer

/-! ## Writing down the calls -/

namespace Host

variable {σ τ : Type}

/-- An action on the state, beside a list that it leaves alone. -/
def beside {W α : Type} (act : StateM τ α) : StateM (τ × W) α := fun (s, w) =>
  ((act s).1, ((act s).2, w))

/-- The host that also writes down which transformer is called on which class. -/
def recording (host : Host σ (StateM τ)) :
    Host σ (StateM (τ × List (Transformer σ × Class))) where
  calling t context c := fun (s, calls) =>
    ((), ((host.calling t context c s).2, calls ++ [(t, c)]))
  called t := beside (host.called t)
  load name := beside (host.load name)
  ask request := beside (host.ask request)
  fetch := beside host.fetch
  store memory := beside (host.store memory)

variable (host : Host σ (StateM τ))

/-- Nothing is written down while a routine runs. -/
theorem run_recording (r : Routine σ) (s : τ)
    (calls : List (Transformer σ × Class)) :
    r.run host.recording (s, calls) =
      ((r.run host s).1, ((r.run host s).2, calls)) := by
  match r with
  | .finish outcome => rfl
  | .load name resume =>
      exact run_recording (resume (host.load name s).1) (host.load name s).2 calls
  | .ask request resume =>
      exact run_recording (resume (host.ask request s).1)
        (host.ask request s).2 calls
  | .fetch resume =>
      exact run_recording (resume (host.fetch s).1) (host.fetch s).2 calls
  | .store memory next => exact run_recording next (host.store memory s).2 calls

end Host

namespace Transformer

variable {σ τ : Type} (host : Host σ (StateM τ)) (options : WriterOptions)
  (context : Context)

theorem call_recording (t : Transformer σ) (c : Class) (s : τ)
    (calls : List (Transformer σ × Class)) :
    t.call host.recording context c (s, calls) =
      ((t.call host context c s).1,
        ((t.call host context c s).2, calls ++ [(t, c)])) := by
  show (fun ran => (ran.1, (host.recording.called t ran.2).2))
    ((t.transform context c).run host.recording
      ((host.calling t context c s).2, calls ++ [(t, c)])) = _
  rw [host.run_recording]
  rfl

/-- The calls that are written down are those of a first part of the transformers, of all
of them if bytes come out. They are added to what was there, and nothing else about the run
changes. -/
theorem exists_made (ts : List (Transformer σ)) (bytes : Bytes) (s : τ) :
    ∃ made : List (Transformer σ × Class),
      made.map Prod.fst <+: ts ∧
      (∀ output, (applyAll host options context ts bytes s).1 = .ok (some output) →
        made.map Prod.fst = ts) ∧
      ∀ calls, applyAll host.recording options context ts bytes (s, calls) =
        ((applyAll host options context ts bytes s).1,
          ((applyAll host options context ts bytes s).2, calls ++ made)) := by
  induction ts generalizing bytes s with
  | nil => exact ⟨[], List.nil_prefix, fun _ _ => rfl, fun calls => by rw [List.append_nil]; rfl⟩
  | cons t ts ih =>
      cases hbytes : Class.decodeValid bytes with
      | error cause =>
          simp only [applyAll_of_decodeValid_error host options context ts hbytes,
            applyAll_of_decodeValid_error host.recording options context ts hbytes]
          refine ⟨[], List.nil_prefix, ?_, fun calls => by rw [List.append_nil]⟩
          intro output h
          cases h
      | ok c =>
          obtain ⟨outcome, s', hcall⟩ := t.exists_call host context c s
          have hrecord (calls) :
              t.call host.recording context c (s, calls) = (outcome, (s', calls ++ [(t, c)])) := by
            rw [call_recording host context t c s calls, hcall]
          simp only [applyAll_of_call host options context ts hbytes hcall,
            applyAll_of_call host.recording options context ts hbytes (hrecord _)]
          have hfinal : [(t, c)].map Prod.fst <+: t :: ts := List.prefix_append [t] ts
          cases t.conclude options context.name outcome with
          | error error =>
              refine ⟨[(t, c)], hfinal, ?_, fun calls => rfl⟩
              intro output h
              cases h
          | ok output? =>
              cases output? with
              | none =>
                  refine ⟨[(t, c)], hfinal, ?_, fun calls => rfl⟩
                  intro output h
                  cases h
              | some output =>
                  obtain ⟨made, hfirst, hall, hmade⟩ := ih output s'
                  refine ⟨(t, c) :: made, List.cons_prefix_cons.mpr ⟨rfl, hfirst⟩, ?_, ?_⟩
                  · intro last h
                    rw [List.map_cons, hall last h]
                  · intro calls
                    dsimp only
                    rw [hmade, List.append_assoc, List.singleton_append]

theorem applyAll_recording (ts : List (Transformer σ)) (bytes : Bytes) (s : τ)
    (calls : List (Transformer σ × Class)) :
    ∃ calls', applyAll host.recording options context ts bytes (s, calls) =
      ((applyAll host options context ts bytes s).1,
        ((applyAll host options context ts bytes s).2, calls')) := by
  obtain ⟨made, -, -, hmade⟩ := exists_made host options context ts bytes s
  exact ⟨calls ++ made, hmade calls⟩

theorem Leaves.of_recording {ts after : List (Transformer σ)} {bytes : Bytes}
    {s : τ} {calls : List (Transformer σ × Class)} {last : Class}
    (h : Leaves host.recording options context ts bytes (s, calls) last after) :
    Leaves host options context ts bytes s last after := by
  generalize hstart : (s, calls) = start at h
  induction h generalizing s calls with
  | here hbytes hcall =>
      rw [← hstart, call_recording] at hcall
      injection hcall with houtcome _
      exact .here hbytes (Prod.ext houtcome rfl)
  | later hbytes hcall hencode _ ih =>
      rw [← hstart, call_recording] at hcall
      injection hcall with houtcome hstate
      exact .later hbytes (Prod.ext houtcome rfl) hencode (ih hstate)

end Transformer

/-! ## The refinement -/

namespace Chain

variable {σ : Type}

/-- Applies a chain in memory: the bytes are decoded and verified once, and
encoded once at the end. -/
def applyInMemory {m : Type → Type} [Monad m] (host : Host σ m) (chain : Chain σ)
    (bytes : Bytes) (name : ClassName) : m Applied :=
  match Class.decodeValid bytes with
  | .error cause => pure (.error (.decode name.dotted cause))
  | .ok c => do
    let final ← Transformer.editAll host chain.options (.plain name)
      chain.transformers c
    return Transformer.written chain.options name final

variable {τ : Type}

theorem applyWith_eq_applyInMemory_under (host : Host σ (StateM τ))
    {chain : Chain σ} {name : ClassName} (hlive : chain.isExempt name = false)
    {bytes : Bytes} {s : τ}
    (hknown : ∀ c after,
      Transformer.Leaves host chain.options (.plain name) chain.transformers bytes s c after →
        c.majorVersion ≤ Class.maxMajorVersion) :
    chain.applyWith host bytes name s =
      chain.applyInMemory host bytes name s := by
  rw [applyWith_of_not_exempt host hlive]
  unfold applyInMemory
  have hts := transformers_ne_nil hlive
  cases hbytes : Class.decodeValid bytes with
  | error cause =>
      obtain ⟨t, ts, hcons⟩ := List.exists_cons_of_ne_nil hts
      rw [hcons, Transformer.applyAll_of_decodeValid_error host _ _ ts hbytes]
      rfl
  | ok c =>
      rw [Transformer.applyAll_eq_written host _ _ hbytes
        (fun hnil => absurd hnil hts) hknown]
      rfl

/-- A chain returns what it returns in memory, and leaves the same state behind,
as long as no transformer makes a class too new. Each transformer is called on
the same class in both ways. -/
theorem applyWith_eq_applyInMemory (host : Host σ (StateM τ)) {chain : Chain σ}
    {name : ClassName} (hlive : chain.isExempt name = false) (bytes : Bytes)
    (s : τ) (hknown : ∀ c after,
      Transformer.Leaves host chain.options (.plain name) chain.transformers bytes s c after →
        c.majorVersion ≤ Class.maxMajorVersion) :
    chain.applyWith host bytes name s = chain.applyInMemory host bytes name s ∧
    ∃ result s' calls,
      chain.applyWith host bytes name s = (result, s') ∧
      chain.applyWith host.recording bytes name (s, []) = (result, (s', calls)) ∧
      chain.applyInMemory host.recording bytes name (s, []) =
        (result, (s', calls)) := by
  have hsame := applyWith_eq_applyInMemory_under host hlive hknown
  have hrecorded : chain.applyWith host.recording bytes name (s, []) =
      chain.applyInMemory host.recording bytes name (s, []) := by
    refine applyWith_eq_applyInMemory_under host.recording hlive ?_
    intro c after h
    exact hknown c after (h.of_recording host chain.options (.plain name))
  obtain ⟨calls, hcalls⟩ :=
    Transformer.applyAll_recording host chain.options (.plain name)
    chain.transformers bytes s []
  rw [← applyWith_of_not_exempt host hlive,
    ← applyWith_of_not_exempt host.recording hlive]
    at hcalls
  refine ⟨hsame, _, _, calls, rfl, hcalls, ?_⟩
  rw [← hrecorded]
  exact hcalls

/-- Two edits in a row. -/
def edits : List (String × (Class → Class)) :=
  [("open", fun c => { c with access := Access.isPublic }),
    ("rename", fun c => { c with name := "B" })]

/-- The chain of these edits. -/
def editing : Chain Unit := .ofTransformers (edits.map fun e => .editing e.1 e.2)

theorem editing_eq_in_memory :
    editing.isExempt (ClassName.of "A") = false ∧
      editing.applyWith .alone (Class.announcedBy 7) (ClassName.of "A") () =
        editing.applyInMemory .alone (Class.announcedBy 7) (ClassName.of "A") () ∧
      (editing.applyInMemory .alone (Class.announcedBy 7) (ClassName.of "A") ()).1.isOk =
        true := by
  refine ⟨rfl, ?_, by decide +kernel⟩
  refine (applyWith_eq_applyInMemory Host.alone rfl (Class.announcedBy 7) () ?_).1
  intro c after h
  refine Transformer.Leaves.majorVersion_le_of_editing edits ?_ h
  simp [edits]

end Chain

end ClassLoom
