import ClassLoom.Proofs.Success
import ClassLoom.Service.Session
import Mathlib.Tactic.Simps.Basic

/-!
# How a load runs

`Pass.load` is written for the room that passes have to nest. This file says what a
load does without speaking of room: `Pass.Runs` relates the pass before a job to the
pass after it, with one rule for each way that the job can go. The jobs are loading a
class, running a routine, and passing a class through a list of transformers, and a
rule for one of them rests on runs of the others.

A load that returns is a run (`runs_of_load`), and a run is what the load returns for
any room that is enough for the passes it nests (`load_of_runs`). So whatever holds of
a load can be shown by induction on its run, and no proof about loads has to open
`Pass.load` again.
-/

namespace ClassLoom

namespace Session

variable {σ : Type} {answer : Request σ → SessionM σ Reply} {s : Session σ} {name : String}
  {memory : σ}

theorem classBytes_raw {result : Except PipelineError Bytes}
    (hraw : s.service.rawBytes name s.memory = (result, memory)) :
    classBytes answer name false s = some (result, { s with memory }) := by
  show withMemory (·.rawBytes name) s = _
  unfold withMemory
  dsimp only
  rw [hraw]

/-- A raw lookup gives the bytes of what is found, and changes nothing but the memory. -/
theorem classBytes_of_find {found : Except PipelineError Found}
    (hfind : s.service.find name s.memory = (found, memory)) :
    classBytes answer name false s = some (found.map Found.bytes, { s with memory }) := by
  refine classBytes_raw ?_
  unfold Service.rawBytes
  rw [stateM_bind, hfind]
  rfl

end Session

namespace Pass

variable {σ : Type}

/-! ## The moves of a pass

Each move is what one step of the definitions does to a pass. A pass starts inside
this one (`enter`) and ends (`exit`); before a transformer is run the flag is lowered
(`ready`); calls and questions are only noted (`calling`, `called`, `asking`). -/

@[simps]
def withSession (p : Pass σ) (s : Session σ) : Pass σ :=
  { p with session := s }

@[simps]
def remember (p : Pass σ) (memory : σ) : Pass σ :=
  { p with session := { p.session with memory } }

@[simps]
def enter (p : Pass σ) : Pass σ :=
  { p with guard := p.guard.push, events := .entered p.guard.push.depth :: p.events }

@[simps]
def exit (p : Pass σ) : Pass σ :=
  { p with guard := p.guard.leave, events := .left p.guard.leave.depth :: p.events }

@[simps]
def delegating (p : Pass σ) : Pass σ :=
  { p with session := { p.session with service := p.session.service.delegated.2 } }

@[simps]
def ready (p : Pass σ) : Pass σ :=
  { p with guard := p.guard.clear }

@[simps]
def calling (p : Pass σ) (t : Transformer σ) (c : Class) : Pass σ :=
  { p with events := .calling t.name p.guard.depth c :: p.events }

@[simps]
def called (p : Pass σ) (t : Transformer σ) : Pass σ :=
  { p with events := .called t.name p.guard.depth :: p.events }

@[simps]
def asking (p : Pass σ) (name : String) : Pass σ :=
  { p with events := .loading name p.guard.depth p.session :: p.events }

/-- The transformer is demoted if the flag is up, and the flag is lowered. -/
def settled (p : Pass σ) (t : Transformer σ) : Pass σ :=
  if p.guard.raised then
    { session := { p.session with service := p.session.service.demote t.name }
      guard := p.guard.clear
      events := .demoted t.name :: p.events }
  else p

/-! ## Runs -/

/-- What is done in a pass, with what it comes to: loading a class, running a routine, or
passing the bytes of a class through transformers. -/
inductive Job (σ : Type) where
  | load (name : String) (result : Except PipelineError Bytes)
  | routine (r : Routine σ) (outcome : Outcome)
  | transform (options : WriterOptions) (context : Context) (ts : List (Transformer σ))
    (bytes : Bytes) (result : Applied)

/-- A job takes one pass to another. -/
inductive Runs (answer : Request σ → SessionM σ Reply) : Job σ → Pass σ → Pass σ → Prop where
  /-- No source has the class, or a source fails. -/
  | missing {name : String} {p : Pass σ} {error : PipelineError} {memory : σ}
      (hfind : p.session.service.find name p.session.memory = (.error error, memory)) :
      Runs answer (.load name (.error error)) p (p.remember memory)
  /-- No transformer may touch the class. -/
  | exempt {name : String} {p : Pass σ} {f : Found} {memory : σ}
      (hfind : p.session.service.find name p.session.memory = (.ok f, memory))
      (hexempt : p.session.service.isExempt f = true) :
      Runs answer (.load name (.ok f.bytes)) p (p.remember memory)
  /-- The pass over the class is too deep. -/
  | tooDeep {name : String} {p : Pass σ} {f : Found} {memory : σ}
      (hfind : p.session.service.find name p.session.memory = (.ok f, memory))
      (hopen : p.session.service.isExempt f = false)
      (hover : p.guard.push.isOver = true) :
      Runs answer (.load name (.ok f.bytes)) p (p.remember memory).enter.exit
  /-- The class is passed through the delegated transformers. -/
  | pass {name : String} {p q : Pass σ} {f : Found} {memory : σ} {result : Applied}
      (hfind : p.session.service.find name p.session.memory = (.ok f, memory))
      (hopen : p.session.service.isExempt f = false)
      (hroom : p.guard.push.isOver = false)
      (hrun : Runs answer
        (.transform p.session.service.options f.context p.session.service.delegated.1 f.bytes
          result)
        (p.remember memory).enter.delegating q) :
      Runs answer (.load name (answerOf f result)) p q.exit
  /-- The routine decides. -/
  | finish {outcome : Outcome} {p : Pass σ} : Runs answer (.routine (.finish outcome) outcome) p p
  /-- The routine asks for a class. -/
  | load {name : String} {resume : Except PipelineError Bytes → Routine σ}
      {result : Except PipelineError Bytes} {outcome : Outcome} {p q r : Pass σ}
      (hload : Runs answer (.load name result) (p.asking name) q)
      (hrest : Runs answer (.routine (resume result) outcome) q r) :
      Runs answer (.routine (.load name resume) outcome) p r
  /-- The routine asks the service. -/
  | ask {request : Request σ} {resume : Reply → Routine σ} {reply : Reply} {s : Session σ}
      {outcome : Outcome} {p r : Pass σ}
      (hanswer : answer request p.session = some (reply, s))
      (hrest : Runs answer (.routine (resume reply) outcome) (p.withSession s) r) :
      Runs answer (.routine (.ask request resume) outcome) p r
  /-- The routine looks into the memory. -/
  | fetch {resume : σ → Routine σ} {outcome : Outcome} {p r : Pass σ}
      (hrest : Runs answer (.routine (resume p.session.memory) outcome) p r) :
      Runs answer (.routine (.fetch resume) outcome) p r
  /-- The routine replaces the memory. -/
  | store {memory : σ} {rest : Routine σ} {outcome : Outcome} {p r : Pass σ}
      (hrest : Runs answer (.routine rest outcome) (p.remember memory) r) :
      Runs answer (.routine (.store memory rest) outcome) p r
  /-- All transformers are done. -/
  | done {options : WriterOptions} {context : Context} {bytes : Bytes} {p : Pass σ} :
      Runs answer (.transform options context [] bytes (.ok (some bytes))) p p
  /-- The bytes cannot be decoded. -/
  | unreadable {options : WriterOptions} {context : Context} {t : Transformer σ}
      {ts : List (Transformer σ)} {bytes : Bytes} {cause : ClassFileError} {p : Pass σ}
      (hbytes : Class.decodeValid bytes = .error cause) :
      Runs answer
        (.transform options context (t :: ts) bytes (.error (.decode context.name.dotted cause)))
        p p.ready
  /-- The first transformer vetoes the class or fails. -/
  | stop {options : WriterOptions} {context : Context} {t : Transformer σ}
      {ts : List (Transformer σ)} {bytes : Bytes} {c : Class} {outcome : Outcome} {p q : Pass σ}
      (hbytes : Class.decodeValid bytes = .ok c)
      (hcall : Runs answer (.routine (t.transform context c) outcome) (p.ready.calling t c) q)
      (hfinal : ∀ output, t.conclude options context.name outcome ≠ .ok (some output)) :
      Runs answer
        (.transform options context (t :: ts) bytes (t.conclude options context.name outcome))
        p ((q.called t).settled t)
  /-- The first transformer hands bytes to the next. -/
  | next {options : WriterOptions} {context : Context} {t : Transformer σ}
      {ts : List (Transformer σ)} {bytes output : Bytes} {c : Class} {outcome : Outcome}
      {result : Applied} {p q r : Pass σ}
      (hbytes : Class.decodeValid bytes = .ok c)
      (hcall : Runs answer (.routine (t.transform context c) outcome) (p.ready.calling t c) q)
      (hkeep : t.conclude options context.name outcome = .ok (some output))
      (hrest : Runs answer (.transform options context ts output result)
        ((q.called t).settled t) r) :
      Runs answer (.transform options context (t :: ts) bytes result) p r

/-! ## What the definitions do, move by move -/

section Equations

variable {ld : String → PassM σ (Except PipelineError Bytes)}
  {answer : Request σ → SessionM σ Reply} {name : String} {p : Pass σ} {f : Found} {memory : σ}

theorem onSession_find {found : Except PipelineError Found}
    (hfind : p.session.service.find name p.session.memory = (found, memory)) :
    onSession (Session.withMemory (·.find name)) p = some (found, p.remember memory) := by
  unfold onSession Session.withMemory
  dsimp only
  rw [hfind]
  rfl

theorem load_succ (answer : Request σ → SessionM σ Reply) (room : Nat) (name : String) :
    load answer (room + 1) name = loadWith (host (load answer room) answer) name := by
  rw [load]

theorem loadWith_of_missing {error : PipelineError}
    (hfind : p.session.service.find name p.session.memory = (.error error, memory)) :
    loadWith (host ld answer) name p = some (.error error, p.remember memory) := by
  unfold loadWith
  rw [bind_of_some (onSession_find hfind)]
  rfl

theorem loadWith_of_exempt
    (hfind : p.session.service.find name p.session.memory = (.ok f, memory))
    (hexempt : p.session.service.isExempt f = true) :
    loadWith (host ld answer) name p = some (.ok f.bytes, p.remember memory) := by
  unfold loadWith
  rw [bind_of_some (onSession_find hfind)]
  show (if p.session.service.isExempt f then _ else _ : PassM σ _) (p.remember memory) = _
  rw [if_pos hexempt]
  rfl

theorem loadWith_of_open
    (hfind : p.session.service.find name p.session.memory = (.ok f, memory))
    (hopen : p.session.service.isExempt f = false) :
    loadWith (host ld answer) name p =
      (body (host ld answer) f (p.remember memory).enter).map fun (result, q) =>
        (answerOf f result, q.exit) := by
  unfold loadWith
  rw [bind_of_some (onSession_find hfind)]
  show (if p.session.service.isExempt f then _ else _ : PassM σ _) (p.remember memory) = _
  rw [if_neg (by simp [hopen])]
  show ((body (host ld answer) f (p.remember memory).enter).bind _).bind _ = _
  rw [Option.map_eq_bind, Option.bind_assoc]
  rfl

theorem loadWith_of_tooDeep
    (hfind : p.session.service.find name p.session.memory = (.ok f, memory))
    (hopen : p.session.service.isExempt f = false) (hover : p.guard.push.isOver = true) :
    loadWith (host ld answer) name p = some (.ok f.bytes, (p.remember memory).enter.exit) := by
  have hbody : body (host ld answer) f (p.remember memory).enter =
      some (.ok (some f.bytes), (p.remember memory).enter) := by
    show (if p.guard.push.isOver then _ else _ : PassM σ Applied) (p.remember memory).enter = _
    rw [if_pos hover]
    rfl
  rw [loadWith_of_open hfind hopen, hbody]
  rfl

theorem loadWith_of_room
    (hfind : p.session.service.find name p.session.memory = (.ok f, memory))
    (hopen : p.session.service.isExempt f = false) (hroom : p.guard.push.isOver = false) :
    loadWith (host ld answer) name p =
      (runAll (host ld answer) p.session.service.options f.context
        p.session.service.delegated.1 f.bytes (p.remember memory).enter.delegating).map
          fun (result, q) => (answerOf f result, q.exit) := by
  have hbody : body (host ld answer) f (p.remember memory).enter =
      runAll (host ld answer) p.session.service.options f.context
        p.session.service.delegated.1 f.bytes (p.remember memory).enter.delegating := by
    show (if p.guard.push.isOver then _ else _ : PassM σ Applied) (p.remember memory).enter = _
    rw [if_neg (by simp [hroom])]
    rfl
  rw [loadWith_of_open hfind hopen, hbody]

theorem load_host (name : String) (p : Pass σ) :
    (host ld answer).load name p = ld name (p.asking name) :=
  rfl

theorem run_load (name : String) (resume : Except PipelineError Bytes → Routine σ) (p : Pass σ) :
    (Routine.load name resume).run (host ld answer) p =
      (ld name (p.asking name)).bind fun (result, q) =>
        (resume result).run (host ld answer) q :=
  rfl

theorem run_ask (request : Request σ) (resume : Reply → Routine σ) (p : Pass σ) :
    (Routine.ask request resume).run (host ld answer) p =
      (onSession (answer request) p).bind fun (reply, q) =>
        (resume reply).run (host ld answer) q :=
  rfl

theorem settle_eq (t : Transformer σ) (p : Pass σ) : settle t p = some ((), p.settled t) := by
  show (if p.guard.raised then _ else _ : PassM σ Unit) p = _
  unfold settled
  split
  · rfl
  · rfl

/-- A class is missing, or exempt, or transformed in a pass that is too deep or is not. -/
theorem load_cases (p : Pass σ) (name : String) :
    (∃ error memory, p.session.service.find name p.session.memory = (.error error, memory)) ∨
      ∃ f memory, p.session.service.find name p.session.memory = (.ok f, memory) ∧
        (p.session.service.isExempt f = true ∨
          p.session.service.isExempt f = false ∧
            (p.guard.push.isOver = true ∨ p.guard.push.isOver = false)) := by
  cases hfind : p.session.service.find name p.session.memory with
  | mk found memory =>
      cases found with
      | error error => exact Or.inl ⟨error, memory, rfl⟩
      | ok f =>
          refine Or.inr ⟨f, memory, rfl, ?_⟩
          cases p.session.service.isExempt f with
          | true => exact Or.inl rfl
          | false => exact Or.inr ⟨rfl, Bool.eq_false_or_eq_true _⟩

variable {options : WriterOptions} {context : Context} {t : Transformer σ}
  {ts : List (Transformer σ)} {bytes : Bytes}

theorem runAll_of_unreadable {cause : ClassFileError}
    (hbytes : Class.decodeValid bytes = .error cause) (p : Pass σ) :
    runAll (host ld answer) options context (t :: ts) bytes p =
      some (.error (.decode context.name.dotted cause), p.ready) := by
  have hone : runOne (host ld answer) options context t bytes p =
      some (.error (.decode context.name.dotted cause), p.ready) := by
    unfold runOne Transformer.apply
    rw [hbytes]
    rfl
  unfold runAll
  rw [bind_of_some hone]
  rfl

theorem runOne_of_readable {c : Class} (hbytes : Class.decodeValid bytes = .ok c) (p : Pass σ) :
    runOne (host ld answer) options context t bytes p =
      ((t.transform context c).run (host ld answer) (p.ready.calling t c)).map fun (outcome, q) =>
        (t.conclude options context.name outcome, (q.called t).settled t) := by
  have happly : t.apply (host ld answer) options context bytes = do
      let outcome ← t.call (host ld answer) context c
      return t.conclude options context.name outcome := by
    unfold Transformer.apply
    rw [hbytes]
  unfold runOne
  rw [happly, bind_of_some (a := ()) (t := p.ready) rfl]
  cases hrun : (t.transform context c).run (host ld answer) (p.ready.calling t c) with
  | none =>
      have hcall : t.call (host ld answer) context c p.ready = none := by
        unfold Transformer.call
        rw [bind_of_some (a := ()) (t := p.ready.calling t c) rfl]
        exact bind_of_none hrun
      exact bind_of_none (bind_of_none hcall)
  | some ran =>
      obtain ⟨outcome, q⟩ := ran
      have hcall : t.call (host ld answer) context c p.ready = some (outcome, q.called t) := by
        unfold Transformer.call
        rw [bind_of_some (a := ()) (t := p.ready.calling t c) rfl, bind_of_some hrun]
        rfl
      rw [bind_of_some (bind_of_some hcall), bind_of_some (settle_eq t _)]
      rfl

theorem runAll_of_readable {c : Class} (hbytes : Class.decodeValid bytes = .ok c) (p : Pass σ) :
    runAll (host ld answer) options context (t :: ts) bytes p =
      ((t.transform context c).run (host ld answer) (p.ready.calling t c)).bind
        fun (outcome, q) =>
          match t.conclude options context.name outcome with
          | .ok (some output) =>
            runAll (host ld answer) options context ts output ((q.called t).settled t)
          | final => some (final, (q.called t).settled t) := by
  have hone : runOne (host ld answer) options context t bytes p = _ :=
    runOne_of_readable hbytes p
  conv =>
    lhs
    unfold runAll
  cases hrun : (t.transform context c).run (host ld answer) (p.ready.calling t c) with
  | none =>
      rw [hrun] at hone
      exact bind_of_none hone
  | some ran =>
      obtain ⟨outcome, q⟩ := ran
      rw [hrun] at hone
      rw [bind_of_some hone]
      dsimp only [Option.bind_some]
      match t.conclude options context.name outcome with
      | .ok (some output) => rfl
      | .ok none => rfl
      | .error error => rfl

end Equations

/-! ## A load that returns is a run -/

section Sound

variable {answer : Request σ → SessionM σ Reply}

/-- What loads do within a pass that has some room, whatever it is. -/
def LoadsRun (answer : Request σ → SessionM σ Reply)
    (ld : String → PassM σ (Except PipelineError Bytes)) : Prop :=
  ∀ name p result q, ld name p = some (result, q) → Runs answer (.load name result) p q

variable {ld : String → PassM σ (Except PipelineError Bytes)}

theorem LoadsRun.routine (hld : LoadsRun answer ld) {r : Routine σ} {p q : Pass σ}
    {outcome : Outcome} (h : r.run (host ld answer) p = some (outcome, q)) :
    Runs answer (.routine r outcome) p q := by
  match r with
  | .finish _ =>
      cases h
      exact .finish
  | .load name resume =>
      obtain ⟨result, q', hload, hrest⟩ := bind_eq_some.mp h
      obtain ⟨u, q'', hnote, hload⟩ := bind_eq_some.mp hload
      cases hnote
      exact .load (hld _ _ _ _ hload) (hld.routine hrest)
  | .ask request resume =>
      obtain ⟨reply, q', hask, hrest⟩ := bind_eq_some.mp h
      obtain ⟨⟨reply', s⟩, hanswer, hsame⟩ := Option.map_eq_some_iff.mp hask
      cases hsame
      exact .ask hanswer (hld.routine hrest)
  | .fetch resume => exact .fetch (hld.routine (r := resume p.session.memory) h)
  | .store memory rest => exact .store (hld.routine (r := rest) (p := p.remember memory) h)

theorem LoadsRun.transform (hld : LoadsRun answer ld) {options : WriterOptions}
    {context : Context} {ts : List (Transformer σ)} {bytes : Bytes} {p q : Pass σ}
    {result : Applied}
    (h : runAll (host ld answer) options context ts bytes p = some (result, q)) :
    Runs answer (.transform options context ts bytes result) p q := by
  induction ts generalizing bytes p with
  | nil =>
      cases h
      exact .done
  | cons t ts ih =>
      cases hbytes : Class.decodeValid bytes with
      | error cause =>
          rw [runAll_of_unreadable hbytes] at h
          cases h
          exact .unreadable hbytes
      | ok c =>
          rw [runAll_of_readable hbytes] at h
          obtain ⟨⟨outcome, r⟩, hcall, hrest⟩ := Option.bind_eq_some_iff.mp h
          have hrun := hld.routine hcall
          dsimp only at hrest
          split at hrest
          · next output hkeep => exact .next hbytes hrun hkeep (ih hrest)
          · next hfinal =>
              cases hrest
              exact .stop hbytes hrun hfinal

theorem LoadsRun.loadWith (hld : LoadsRun answer ld) :
    LoadsRun answer (loadWith (host ld answer)) := by
  intro name p result q h
  rcases load_cases p name with
    ⟨error, memory, hfind⟩ | ⟨f, memory, hfind, hexempt | ⟨hopen, hover | hroom⟩⟩
  · rw [loadWith_of_missing hfind] at h
    cases h
    exact .missing hfind
  · rw [loadWith_of_exempt hfind hexempt] at h
    cases h
    exact .exempt hfind hexempt
  · rw [loadWith_of_tooDeep hfind hopen hover] at h
    cases h
    exact .tooDeep hfind hopen hover
  · rw [loadWith_of_room hfind hopen hroom] at h
    obtain ⟨⟨applied, r⟩, hall, hsame⟩ := Option.map_eq_some_iff.mp h
    cases hsame
    exact .pass hfind hopen hroom (hld.transform hall)

theorem runs_of_load (room : Nat) : LoadsRun answer (load answer room) := by
  induction room with
  | zero =>
      intro name p result q h
      cases h
  | succ room ih => exact ih.loadWith

end Sound

/-! ## A run is what the load returns -/

section Depth

theorem depth_settled (p : Pass σ) (t : Transformer σ) :
    (p.settled t).guard.depth = p.guard.depth := by
  unfold settled
  split <;> rfl

theorem maxDepth_settled (p : Pass σ) (t : Transformer σ) :
    (p.settled t).guard.maxDepth = p.guard.maxDepth := by
  unfold settled
  split <;> rfl

variable {answer : Request σ → SessionM σ Reply} {job : Job σ} {p q : Pass σ}

/-- However a job ends, as many passes are under way as when it started. -/
theorem Runs.depth_eq (h : Runs answer job p q) : q.guard.depth = p.guard.depth := by
  induction h with
  | missing _ | exempt _ _ | finish | done | unreadable _ => rfl
  | tooDeep _ _ _ => simp [Guard.leave, Guard.push]
  | pass _ _ _ _ ih => simp [Guard.leave, Guard.push, ih]
  | load _ _ ihload ihrest => rw [ihrest, ihload, asking_guard]
  | ask _ _ ih | fetch _ ih | store _ ih => simpa using ih
  | stop _ _ _ ih => simpa [depth_settled, Guard.clear] using ih
  | next _ _ _ _ ihcall ihrest => simpa [depth_settled, Guard.clear, ihcall] using ihrest

theorem Runs.maxDepth_eq (h : Runs answer job p q) : q.guard.maxDepth = p.guard.maxDepth := by
  induction h with
  | missing _ | exempt _ _ | finish | done | unreadable _ => rfl
  | tooDeep _ _ _ => simp [Guard.leave, Guard.push]
  | pass _ _ _ _ ih => simp [Guard.leave, Guard.push, ih]
  | load _ _ ihload ihrest => rw [ihrest, ihload, asking_guard]
  | ask _ _ ih | fetch _ ih | store _ ih => simpa using ih
  | stop _ _ _ ih => simpa [maxDepth_settled, Guard.clear] using ih
  | next _ _ _ _ ihcall ihrest => simpa [maxDepth_settled, Guard.clear, ihcall] using ihrest

theorem Runs.depth_after_call {t : Transformer σ} {c : Class}
    (h : Runs answer job (p.ready.calling t c) q) :
    ((q.called t).settled t).guard.depth = p.guard.depth := by
  rw [depth_settled]
  exact h.depth_eq

theorem Runs.maxDepth_after_call {t : Transformer σ} {c : Class}
    (h : Runs answer job (p.ready.calling t c) q) :
    ((q.called t).settled t).guard.maxDepth = p.guard.maxDepth := by
  rw [maxDepth_settled]
  exact h.maxDepth_eq

theorem raised_settled (p : Pass σ) (t : Transformer σ) :
    (p.settled t).guard.raised = false := by
  unfold settled
  split
  · rfl
  · next hlowered => simpa using hlowered

/-- A job starts with the flag down, and in a pass that is not as deep as it may be. Between
two transformers of a pass the depth does not matter. -/
def Job.Lowered (p : Pass σ) : Job σ → Prop
  | .load _ _ | .routine _ _ => p.guard.raised = false ∧ p.guard.depth < p.guard.maxDepth
  | .transform _ _ _ _ _ => p.guard.raised = false

/-- Whatever is loaded, the flag stays down: only a pass that is as deep as it may be sees
one that is too deep, and it lowers the flag before anyone else looks. -/
theorem Runs.lowered (h : Runs answer job p q) (hp : job.Lowered p) : q.guard.raised = false := by
  induction h with
  | missing _ | exempt _ _ | finish => exact hp.1
  | @tooDeep name p f memory _ _ hover =>
      have hless := hp.2
      simp [Guard.isOver, Guard.push] at hover
      omega
  | @pass name p q f memory result _ _ hroom _ ih =>
      refine ih ?_
      have hless := hp.2
      simp [Job.Lowered, Guard.push, hp.1]
      omega
  | load hload _ ihload ihrest =>
      refine ihrest ⟨ihload hp, ?_⟩
      rw [hload.depth_eq, hload.maxDepth_eq]
      exact hp.2
  | ask _ _ ih | fetch _ ih | store _ ih => exact ih hp
  | done => exact hp
  | unreadable _ => rfl
  | stop _ _ _ _ => exact raised_settled _ _
  | next _ _ _ _ _ ihrest => exact ihrest (raised_settled _ _)

end Depth

/-- So much room is enough to get to the pass that is too deep. -/
def HasRoom (p : Pass σ) (room : Nat) : Prop :=
  0 < room ∧ p.guard.maxDepth < p.guard.depth + room

/-- Doing the job with so much room takes one pass to the other and comes to what the
job says. -/
def Job.Gives (answer : Request σ → SessionM σ Reply) (room : Nat) (p q : Pass σ) :
    Job σ → Prop
  | .load name result => Pass.load answer room name p = some (result, q)
  | .routine r outcome => r.run (host (Pass.load answer room) answer) p = some (outcome, q)
  | .transform options context ts bytes result =>
    runAll (host (Pass.load answer room) answer) options context ts bytes p = some (result, q)

section Adequate

variable {answer : Request σ → SessionM σ Reply} {job : Job σ} {p q : Pass σ} {room : Nat}

theorem HasRoom.of_runs (h : p.HasRoom room) (hrun : Runs answer job p q) : q.HasRoom room := by
  unfold HasRoom at h ⊢
  rwa [hrun.depth_eq, hrun.maxDepth_eq]

theorem HasRoom.exists_eq_succ (h : p.HasRoom room) : ∃ less, room = less + 1 := by
  have hpos := h.1
  exact ⟨room - 1, by omega⟩

theorem run_load_of_some {ld : String → PassM σ (Except PipelineError Bytes)} {name : String}
    {resume : Except PipelineError Bytes → Routine σ} {result : Except PipelineError Bytes}
    (h : ld name (p.asking name) = some (result, q)) :
    (Routine.load name resume).run (host ld answer) p = (resume result).run (host ld answer) q := by
  rw [run_load, h, Option.bind_some]

theorem run_ask_of_some {ld : String → PassM σ (Except PipelineError Bytes)} {request : Request σ}
    {resume : Reply → Routine σ} {reply : Reply} {s : Session σ}
    (h : answer request p.session = some (reply, s)) :
    (Routine.ask request resume).run (host ld answer) p =
      (resume reply).run (host ld answer) (p.withSession s) := by
  have hask : onSession (answer request) p = some (reply, p.withSession s) := by
    unfold onSession
    rw [h]
    rfl
  rw [run_ask, hask, Option.bind_some]

/-- A run is what comes out for any room that is enough. The room that a pass inside a
pass has is one less, and so is what it needs. -/
theorem Runs.gives (h : Runs answer job p q) (hroom : p.HasRoom room) :
    job.Gives answer room p q := by
  induction h generalizing room with
  | missing hfind =>
      obtain ⟨room, rfl⟩ := hroom.exists_eq_succ
      exact loadWith_of_missing hfind
  | exempt hfind hexempt =>
      obtain ⟨room, rfl⟩ := hroom.exists_eq_succ
      exact loadWith_of_exempt hfind hexempt
  | tooDeep hfind hopen hover =>
      obtain ⟨room, rfl⟩ := hroom.exists_eq_succ
      exact loadWith_of_tooDeep hfind hopen hover
  | @pass name p q f memory result hfind hopen hfits hrun ih =>
      obtain ⟨room, rfl⟩ := hroom.exists_eq_succ
      have hless : ((p.remember memory).enter.delegating).HasRoom room := by
        have hfits : p.guard.depth + 1 ≤ p.guard.maxDepth := by
          simpa [Guard.isOver, Guard.push] using hfits
        have hneeds := hroom.2
        unfold HasRoom
        simp only [delegating_guard, enter_guard, remember_guard, Guard.push]
        omega
      have hall : runAll (host (Pass.load answer room) answer) _ _ _ _ _ = _ := ih hless
      show Pass.loadWith (host (Pass.load answer room) answer) name p = _
      rw [loadWith_of_room hfind hopen hfits, hall]
      rfl
  | finish => rfl
  | load hload hrest ihload ihrest =>
      have hroom' : HasRoom _ room := HasRoom.of_runs (p := Pass.asking _ _) hroom hload
      exact (run_load_of_some (ihload hroom)).trans (ihrest hroom')
  | ask hanswer _ ih => exact (run_ask_of_some hanswer).trans (ih hroom)
  | fetch _ ih => exact ih hroom
  | store _ ih => exact ih hroom
  | done => rfl
  | unreadable hbytes => exact runAll_of_unreadable hbytes _
  | stop hbytes hcall hfinal ih =>
      refine (runAll_of_readable hbytes _).trans ?_
      rw [ih hroom, Option.bind_some]
      dsimp only
      split
      · next output hkeep => exact (hfinal output hkeep).elim
      · rfl
  | next hbytes hcall hkeep hrest ihcall ihrest =>
      refine (runAll_of_readable hbytes _).trans ?_
      rw [ihcall hroom, Option.bind_some]
      simp only [hkeep]
      refine ihrest ?_
      unfold HasRoom at hroom ⊢
      rwa [hcall.depth_after_call, hcall.maxDepth_after_call]

/-- A run of a load is what the load returns, for any room that is enough. -/
theorem load_of_runs {name : String} {result : Except PipelineError Bytes}
    (h : Runs answer (.load name result) p q) (hroom : p.HasRoom room) :
    load answer room name p = some (result, q) :=
  h.gives hroom

end Adequate

end Pass

end ClassLoom
