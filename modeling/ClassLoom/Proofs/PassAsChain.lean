import ClassLoom.Proofs.NameForms
import ClassLoom.Proofs.PassCalls

/-!
# A load and a chain come to the same

There are two loops over transformers. One is that of a pass, with a guard around it,
whose transformers may load classes. The other is that of a chain, whose transformers
have nothing to load from. They check different exclusions before they start, and one of
them is not entered for a list without transformers. This file shows that they agree on
transformers that load nothing and leave the service as it is: what such a transformer
asks is answered alike by both hosts, so both take a session to the same session.

It is the session that is compared along the way. Beside it a pass has a guard and a log,
and a call of a transformer that loads nothing leaves the guard alone and adds to the log
only that it was made. So the flag is down when the call ends, and nobody is demoted.

A chain keeps no log. What its transformers are called on is noted by its host.
-/

namespace ClassLoom

variable {σ : Type}

/-! ## Transformers that look on -/

/-- The routine loads nothing, and what it asks is answered and leaves the service as it
is. -/
inductive Routine.Observes (answer : Request σ → SessionM σ Reply) (v : Service σ) :
    Routine σ → Prop where
  | finish (outcome : Outcome) : (Routine.finish outcome).Observes answer v
  | ask {request : Request σ} {resume : Reply → Routine σ}
      (hanswer : ∀ s, s.service = v →
        ∃ reply s', answer request s = some (reply, s') ∧ s'.service = v)
      (h : ∀ reply, (resume reply).Observes answer v) :
      (Routine.ask request resume).Observes answer v
  | fetch {resume : σ → Routine σ} (h : ∀ memory, (resume memory).Observes answer v) :
      (Routine.fetch resume).Observes answer v
  | store {memory : σ} {rest : Routine σ} (h : rest.Observes answer v) :
      (Routine.store memory rest).Observes answer v

/-- The transformer neither re-enters the service nor changes it. -/
def Transformer.Observes (answer : Request σ → SessionM σ Reply) (v : Service σ)
    (t : Transformer σ) : Prop :=
  ∀ context c, (t.transform context c).Observes answer v

/-! ## Noting the calls -/

namespace Host

variable {τ W : Type}

/-- An action on the state, with something beside it that it leaves alone. -/
def next {α : Type} (act : StateT τ Option α) : StateT (τ × W) Option α := fun (s, w) =>
  (act s).map fun ran => (ran.1, ran.2, w)

/-- The host that also notes which transformer is called on which class. -/
def noting (host : Host σ (StateT τ Option)) :
    Host σ (StateT (τ × List (Transformer σ × Class)) Option) where
  calling t context c := fun (s, noted) =>
    (host.calling t context c s).map fun ran => ((), ran.2, noted ++ [(t, c)])
  called t := next (host.called t)
  load name := next (host.load name)
  ask request := next (host.ask request)
  fetch := next host.fetch
  store memory := next (host.store memory)

variable {host : Host σ (StateT τ Option)} {noted : List (Transformer σ × Class)}

theorem next_of_some {α : Type} {act : StateT τ Option α} {a : α} {s s' : τ} {w : W}
    (h : act s = some (a, s')) : next act (s, w) = some (a, s', w) := by
  unfold next
  dsimp only
  rw [h]
  rfl

/-- A routine that returns also does when calls are noted, and none is while it runs. -/
theorem run_noting {r : Routine σ} {s s' : τ} {outcome : Outcome}
    (h : r.run host s = some (outcome, s')) :
    r.run host.noting (s, noted) = some (outcome, s', noted) := by
  match r with
  | .finish _ =>
      cases h
      rfl
  | .load name resume =>
      obtain ⟨answer, t, hload, hrest⟩ := bind_eq_some.mp h
      exact (bind_of_some (next_of_some hload)).trans (run_noting hrest)
  | .ask request resume =>
      obtain ⟨reply, t, hask, hrest⟩ := bind_eq_some.mp h
      exact (bind_of_some (next_of_some hask)).trans (run_noting hrest)
  | .fetch resume =>
      obtain ⟨memory, t, hfetch, hrest⟩ := bind_eq_some.mp h
      exact (bind_of_some (next_of_some hfetch)).trans (run_noting hrest)
  | .store memory rest =>
      obtain ⟨_, t, hstore, hrest⟩ := bind_eq_some.mp h
      exact (bind_of_some (next_of_some hstore)).trans (run_noting hrest)

end Host

/-! ## Applying transformers, one call at a time -/

namespace Transformer

variable {τ : Type} {host : Host σ (StateT τ Option)} {options : WriterOptions}
  {context : Context} {t : Transformer σ} {ts : List (Transformer σ)} {bytes : Bytes}
  {c : Class} {outcome : Outcome} {s s' : τ}

theorem applyAll_of_some (hbytes : Class.decodeValid bytes = .ok c)
    (hcall : t.call host context c s = some (outcome, s')) :
    applyAll host options context (t :: ts) bytes s =
      match t.conclude options context.name outcome with
      | .ok (some output) => applyAll host options context ts output s'
      | final => some (final, s') := by
  rw [applyAll_of_readable host options context ts hbytes, bind_of_some hcall]
  match t.conclude options context.name outcome with
  | .ok (some output) | .ok none | .error error => rfl

end Transformer

namespace Session

variable {answer : Request σ → SessionM σ Reply} {context : Context} {t : Transformer σ}
  {c : Class} {outcome : Outcome} {s s' : Session σ}

theorem call_of_run (h : (t.transform context c).run (host answer) s = some (outcome, s')) :
    t.call (host answer) context c s = some (outcome, s') := by
  unfold Transformer.call
  rw [bind_of_some (a := ()) (t := s) rfl, bind_of_some h]
  rfl

theorem call_noting_of_run {noted : List (Transformer σ × Class)}
    (h : (t.transform context c).run (host answer) s = some (outcome, s')) :
    t.call (host answer).noting context c (s, noted) = some (outcome, s', noted ++ [(t, c)]) := by
  unfold Transformer.call
  rw [bind_of_some (a := ()) (t := (s, noted ++ [(t, c)])) rfl, bind_of_some (Host.run_noting h)]
  rfl

end Session

/-! ## Names and exclusions -/

/-- Where a class is stored under the name that it is asked for, and the loader may
intercept it, it is exempt just when a chain has to leave it alone. -/
theorem Service.isExempt_eq {v : Service σ} {f : Found} {name : String}
    (hraw : f.raw = ClassName.of name) (hrequested : f.requested = ClassName.of name)
    (hload : v.exclusions.isLoadExcluded name none = false) :
    v.isExempt f = v.exclusions.isTransformExcluded (ClassName.of name).dotted
      (some (ClassName.of name).dotted) := by
  have hsame : v.exclusions.isLoadExcluded (ClassName.of name).dotted
      (some (ClassName.of name).dotted) = v.exclusions.isLoadExcluded name none := by
    unfold Exclusions.isLoadExcluded Exclusions.isExcluded ClassName.of
    simp only [normalize_normalize, Option.any_some, Option.any_none, Bool.or_self, Bool.or_false]
  unfold Service.isExempt Exclusions.isClassExcluded
  rw [hraw, hrequested, hsame, hload, Bool.false_or]

/-! ## A pass without re-entrance -/

namespace Pass

variable {answer : Request σ → SessionM σ Reply} {v : Service σ}

/-- A routine that observes runs in a pass as it does outside of passes, and what it does
to the pass is what it does to the session. -/
theorem exists_runs_of_observes {r : Routine σ} (hr : r.Observes answer v) {p : Pass σ}
    (hv : p.session.service = v) :
    ∃ outcome s, s.service = v ∧ Runs answer (.routine r outcome) p (p.withSession s) ∧
      r.run (Session.host answer) p.session = some (outcome, s) := by
  induction hr generalizing p with
  | finish outcome => exact ⟨outcome, p.session, hv, .finish, rfl⟩
  | ask hanswer _ ih =>
      obtain ⟨reply, s, hreply, hs⟩ := hanswer p.session hv
      obtain ⟨outcome, s', hs', hruns, hrun⟩ := ih reply (p := p.withSession s) hs
      exact ⟨outcome, s', hs', .ask hreply hruns, (bind_of_some hreply).trans hrun⟩
  | fetch _ ih =>
      obtain ⟨outcome, s, hs, hruns, hrun⟩ := ih p.session.memory hv
      exact ⟨outcome, s, hs, .fetch hruns, hrun⟩
  | @store memory _ _ ih =>
      obtain ⟨outcome, s, hs, hruns, hrun⟩ := ih (p := p.remember memory) hv
      exact ⟨outcome, s, hs, .store hruns, hrun⟩

theorem settled_of_lowered {p : Pass σ} (h : p.guard.raised = false) (t : Transformer σ) :
    p.settled t = p := by
  unfold settled
  rw [if_neg (by simp [h])]

/-- The call, by whom it is made to whom. -/
def Call.made (k : Call σ) : Transformer σ × Class :=
  (k.transformer, k.received)

/-- Passing bytes through transformers in a pass, in these calls and without a demotion, is
applying the transformers to the bytes. -/
structure Mirrors (answer : Request σ → SessionM σ Reply) (options : WriterOptions)
    (context : Context) (ts : List (Transformer σ)) (bytes : Bytes) (p : Pass σ)
    (ks : List (Call σ)) (applied : Applied) (q : Pass σ) : Prop where
  runs : ∃ r, Runs answer (.transform options context ts bytes applied) p r ∧
    r.session = q.session ∧ r.events = q.events
  executes : Executes answer context ks p q
  demotions : q.events.filterMap Event.demotion? = p.events.filterMap Event.demotion?
  applies : Transformer.applyAll (Session.host answer) options context ts bytes p.session =
    some (applied, q.session)
  notes : ∀ noted,
    Transformer.applyAll (Session.host answer).noting options context ts bytes
      (p.session, noted) = some (applied, q.session, noted ++ ks.map Call.made)

section Mirror

variable {options : WriterOptions} {context : Context} {t : Transformer σ}
  {ts : List (Transformer σ)} {bytes : Bytes} {c : Class} {outcome : Outcome} {s : Session σ}
  {p q : Pass σ} {ks : List (Call σ)} {applied : Applied}

theorem mirrors_nil (bytes : Bytes) (p : Pass σ) :
    Mirrors answer options context [] bytes p [] (.ok (some bytes)) p where
  runs := ⟨p, .done, rfl, rfl⟩
  executes := .done
  demotions := rfl
  applies := rfl
  notes noted := by
    rw [List.map_nil, List.append_nil]
    rfl

theorem mirrors_unreadable {cause : ClassFileError} (hbytes : Class.decodeValid bytes = .error cause)
    (p : Pass σ) :
    Mirrors answer options context (t :: ts) bytes p []
      (.error (.decode context.name.dotted cause)) p where
  runs := ⟨p.ready, .unreadable hbytes, rfl, rfl⟩
  executes := .done
  demotions := rfl
  applies := by
    rw [Transformer.applyAll_of_unreadable _ options context ts hbytes]
    rfl
  notes noted := by
    rw [List.map_nil, List.append_nil, Transformer.applyAll_of_unreadable _ options context ts hbytes]
    rfl

/-- The pass after a call of a transformer that observes. -/
def afterCall (p : Pass σ) (t : Transformer σ) (c : Class) (s : Session σ) : Pass σ :=
  ((p.ready.calling t c).withSession s).called t

theorem settled_afterCall (p : Pass σ) (t : Transformer σ) (c : Class) (s : Session σ) :
    (((p.ready.calling t c).withSession s).called t).settled t = p.afterCall t c s :=
  settled_of_lowered rfl t

variable (hbytes : Class.decodeValid bytes = .ok c)
  (hruns : Runs answer (.routine (t.transform context c) outcome) (p.ready.calling t c)
    ((p.ready.calling t c).withSession s))
  (hrun : (t.transform context c).run (Session.host answer) p.session = some (outcome, s))

include hbytes hruns hrun

theorem mirrors_stop
    (hfinal : ∀ output, t.conclude options context.name outcome ≠ .ok (some output)) :
    Mirrors answer options context (t :: ts) bytes p [⟨t, c, outcome⟩]
      (t.conclude options context.name outcome) (p.afterCall t c s) where
  runs := by
    have hstop : Runs answer (.transform options context (t :: ts) bytes _) p _ :=
      .stop hbytes hruns hfinal
    rw [settled_afterCall] at hstop
    exact ⟨_, hstop, rfl, rfl⟩
  executes := by
    refine .call hruns ?_
    rw [settled_afterCall]
    exact .done
  demotions := rfl
  applies := by
    rw [Transformer.applyAll_of_some hbytes (Session.call_of_run hrun)]
    split
    · next output hkeep => exact absurd hkeep (hfinal output)
    · rfl
  notes noted := by
    rw [Transformer.applyAll_of_some hbytes (Session.call_noting_of_run hrun)]
    split
    · next output hkeep => exact absurd hkeep (hfinal output)
    · rfl

theorem Mirrors.next {output : Bytes}
    (hkeep : t.conclude options context.name outcome = .ok (some output))
    (h : Mirrors answer options context ts output (p.afterCall t c s) ks applied q) :
    Mirrors answer options context (t :: ts) bytes p (⟨t, c, outcome⟩ :: ks) applied q where
  runs := by
    obtain ⟨r, hrest, hsession, hevents⟩ := h.runs
    rw [← settled_afterCall] at hrest
    exact ⟨r, .next hbytes hruns hkeep hrest, hsession, hevents⟩
  executes := by
    refine .call hruns ?_
    rw [settled_afterCall]
    exact h.executes
  demotions := h.demotions
  applies := by
    rw [Transformer.applyAll_of_some hbytes (Session.call_of_run hrun), hkeep]
    exact h.applies
  notes noted := by
    rw [Transformer.applyAll_of_some hbytes (Session.call_noting_of_run hrun), hkeep]
    have hrest := h.notes (noted ++ [(t, c)])
    rw [List.append_assoc] at hrest
    exact hrest

end Mirror

theorem exists_mirrors (options : WriterOptions) (context : Context) {ts : List (Transformer σ)}
    (hts : ∀ t ∈ ts, t.Observes answer v) (bytes : Bytes) {p : Pass σ}
    (hv : p.session.service = v) :
    ∃ ks applied q, Mirrors answer options context ts bytes p ks applied q ∧
      q.session.service = v := by
  induction ts generalizing bytes p with
  | nil => exact ⟨[], _, p, mirrors_nil bytes p, hv⟩
  | cons t ts ih =>
      obtain ⟨ht, hts⟩ := List.forall_mem_cons.mp hts
      cases hbytes : Class.decodeValid bytes with
      | error cause => exact ⟨[], _, p, mirrors_unreadable hbytes p, hv⟩
      | ok c =>
          obtain ⟨outcome, s, hs, hruns, hrun⟩ :=
            exists_runs_of_observes (ht context c) (p := p.ready.calling t c) hv
          by_cases hkeep : ∃ output, t.conclude options context.name outcome = .ok (some output)
          · obtain ⟨output, hkeep⟩ := hkeep
            -- the flag is down after the call, so the rest starts from `s` with the service `v`
            obtain ⟨ks, applied, q, hmirrors, hq⟩ := ih hts output (p := p.afterCall t c s) hs
            exact ⟨_, applied, q, hmirrors.next hbytes hruns hrun hkeep, hq⟩
          · exact ⟨_, _, _, mirrors_stop hbytes hruns hrun (not_exists.mp hkeep), hs⟩

/-! ## What both start from -/

section Starts

variable {answer : Request σ → SessionM σ Reply} {s s₁ : Session σ} {name : String}
  {bytes : Bytes}

theorem find_of_classBytes (h : Session.classBytes answer name false s = some (.ok bytes, s₁)) :
    ∃ f memory, s.service.find name s.memory = (.ok f, memory) ∧ f.bytes = bytes ∧
      s₁ = { s with memory } := by
  obtain ⟨found, memory, hfind⟩ : ∃ found memory,
      s.service.find name s.memory = (found, memory) := ⟨_, _, rfl⟩
  rw [Session.classBytes_of_find hfind] at h
  injection h with h
  injection h with hresult hsession
  cases found with
  | error error => cases hresult
  | ok f =>
      injection hresult with hresult
      exact ⟨f, memory, hfind, hresult, hsession.symm⟩

section Exclusion

variable {m : Type → Type} [Monad m] {host : Host σ m} {v : Service σ}
  {ts : List (Transformer σ)} {n : ClassName}

theorem applyWith_of_included
    (h : v.exclusions.isTransformExcluded n.dotted (some n.dotted) = false) :
    (v.chainOf ts).applyWith host bytes n =
      Transformer.applyAll host v.options (.plain n) ts bytes :=
  Chain.applyWith_of_not_excludes host (v.chainOf ts) h bytes

theorem applyWith_of_excluded
    (h : v.exclusions.isTransformExcluded n.dotted (some n.dotted) = true) :
    (v.chainOf ts).applyWith host bytes n = pure (.ok (some bytes)) :=
  Chain.applyWith_of_excludes host (v.chainOf ts) h bytes

end Exclusion

/-- Asking for the chain of delegated transformers to be applied fetches the list, and
applies it to what the session then is. -/
theorem applyChain_of_some {applied : Applied} {s₂ : Session σ}
    (h : (s.service.chainOf s.service.delegated.1).applyWith (Session.host answer) bytes
      (ClassName.of name) { s with service := s.service.delegated.2 } = some (applied, s₂)) :
    Session.answerWith answer (.applyChain bytes name) s =
      some (.ofExcept .applied applied, s₂) := by
  have hdelegated : Session.delegated s =
      some (s.service.delegated.1, { s with service := s.service.delegated.2 }) := rfl
  have happlied : Session.applyTransformers answer s.service.delegated.1 bytes (ClassName.of name)
      { s with service := s.service.delegated.2 } = some (applied, s₂) := h
  exact (bind_of_some hdelegated).trans (bind_of_some happlied)

end Starts

/-! ## The agreement -/

/-- What is handed through transformers is vetoed by an empty answer and never by the
error that there is no such class. -/
theorem Handed.ne_notFound {options : WriterOptions} {name : ClassName}
    {ts : List (Transformer σ)} {bytes : Bytes} {ks : List (Call σ)} {applied : Applied}
    (h : Handed options name ts bytes ks applied) (n : String) : applied ≠ .error (.notFound n) := by
  induction h with
  | done =>
      intro hsame
      cases hsame
  | unreadable _ =>
      intro hsame
      cases hsame
  | stop _ _ =>
      intro hsame
      obtain ⟨_, hblamed⟩ := Transformer.conclude_eq_error _ _ hsame
      cases hblamed
  | next _ _ _ ih => exact ih

theorem answerOf_eq_notFound {f : Found} {applied : Applied}
    (h : ∀ n, applied ≠ .error (.notFound n)) :
    answerOf f applied = .error (.notFound f.requested.dotted) ↔ applied = .ok none := by
  match applied with
  | .ok (some output) | .ok none => simp [answerOf]
  | .error error =>
      have hother : error ≠ .notFound f.requested.dotted := fun hsame => h _ (by rw [hsame])
      simp [answerOf, hother]

section Agreement

variable {answer : Request σ → SessionM σ Reply} {s s₁ : Session σ} {name : String}
  {bytes : Bytes} {f : Found} {memory : σ}

/-- A load that found `f` comes to what the chain of delegated transformers makes of the
bytes of `f`, in these calls and without a demotion. -/
structure Agrees (answer : Request σ → SessionM σ Reply) (s : Session σ) (name : String)
    (f : Found) (memory : σ) (applied : Applied) (ks : List (Call σ)) (p q : Pass σ)
    (s₂ : Session σ) : Prop where
  loads : load answer (s.service.config.reentranceDepth + 1) name (start s) =
    some (answerOf f applied, p)
  applies : (s.service.chainOf s.service.delegated.1).applyWith (Session.host answer) f.bytes
    (ClassName.of name) { s with service := s.service.delegated.2, memory } = some (applied, s₂)
  notes : (s.service.chainOf s.service.delegated.1).applyWith (Session.host answer).noting f.bytes
    (ClassName.of name) ({ s with service := s.service.delegated.2, memory }, []) =
      some (applied, s₂, ks.map Call.made)
  executes : Executes answer (.plain (ClassName.of name)) ks
    ((start s).remember memory).enter.delegating q
  calls : p.log.filterMap (callAt? 1) = ks.map Call.noted
  memory_eq : p.session.memory = s₂.memory
  demotions : p.log.filterMap Event.demotion? = []
  demoted_eq : p.session.service.demoted = s.service.demoted
  ne_notFound : ∀ n, applied ≠ .error (.notFound n)

theorem agrees_of_excluded (hfind : s.service.find name s.memory = (.ok f, memory))
    (hexempt : s.service.isExempt f = true)
    (hexcluded : s.service.exclusions.isTransformExcluded (ClassName.of name).dotted
      (some (ClassName.of name).dotted) = true) :
    Agrees answer s name f memory (.ok (some f.bytes)) [] ((start s).remember memory)
      ((start s).remember memory).enter.delegating
      { s with service := s.service.delegated.2, memory } where
  loads := by
    rw [load_succ]
    exact loadWith_of_exempt (p := start s) hfind hexempt
  applies := by
    rw [applyWith_of_excluded hexcluded]
    rfl
  notes := by
    rw [applyWith_of_excluded hexcluded]
    rfl
  executes := .done
  calls := rfl
  memory_eq := rfl
  demotions := rfl
  demoted_eq := rfl
  ne_notFound n := by
    intro hsame
    cases hsame

theorem exists_agrees_of_open (hdepth : 1 ≤ s.service.config.reentranceDepth)
    (hfind : s.service.find name s.memory = (.ok f, memory))
    (hcontext : f.context = .plain (ClassName.of name)) (hopen : s.service.isExempt f = false)
    (hincluded : s.service.exclusions.isTransformExcluded (ClassName.of name).dotted
      (some (ClassName.of name).dotted) = false)
    (hobserves : ∀ t ∈ s.service.delegated.1, t.Observes answer s.service.delegated.2) :
    ∃ applied ks p q s₂, Agrees answer s name f memory applied ks p q s₂ := by
  obtain ⟨ks, applied, q, hmirrors, hq⟩ :=
    exists_mirrors s.service.options (.plain (ClassName.of name)) hobserves f.bytes
      (p := ((start s).remember memory).enter.delegating) rfl
  obtain ⟨r, hruns, hsession, hevents⟩ := hmirrors.runs
  have hroom : ((start s).remember memory).enter.delegating.HasRoom
      s.service.config.reentranceDepth := ⟨hdepth, Nat.lt_add_of_pos_left Nat.one_pos⟩
  refine ⟨applied, ks, r.exit, q, q.session, ?_⟩
  constructor
  case loads =>
    rw [← hcontext] at hruns
    exact load_of_runAll hdepth hfind hopen (hruns.gives hroom)
  case applies =>
    rw [applyWith_of_included hincluded]
    exact hmirrors.applies
  case notes =>
    rw [applyWith_of_included hincluded]
    exact hmirrors.notes []
  case executes => exact hmirrors.executes
  case calls => exact calls_log_exit hmirrors.executes hevents
  case memory_eq => rw [exit_session, hsession]
  case demotions =>
    unfold log
    rw [List.filterMap_reverse, exit_events, List.filterMap_cons_none rfl, hevents,
      hmirrors.demotions]
    rfl
  case demoted_eq =>
    rw [exit_session, hsession, hq]
    rfl
  case ne_notFound =>
    obtain ⟨_, _, _, hhanded, _⟩ := hruns.exists_calls
    exact hhanded.ne_notFound

/-- Loading a class and applying the chain of delegated transformers to the bytes of the
class agree, for transformers that neither re-enter the service nor change it. Bytes come
out of the load when the same come out of the chain, the class is not found when the chain
vetoes it, and an error of the chain is that of the load. The same transformers are called
on the same classes in the same order, both leave the same memory behind, and nobody is
demoted. -/
theorem load_eq_chain (hdepth : 1 ≤ s.service.config.reentranceDepth)
    (hunmap : (s.service.unmap (ClassName.of name) s.memory).1 = ClassName.of name)
    (hload : s.service.exclusions.isLoadExcluded name none = false)
    (hbytes : Session.classBytes answer name false s = some (.ok bytes, s₁))
    (hobserves : ∀ t ∈ s.service.delegated.1, t.Observes answer s.service.delegated.2) :
    let n := ClassName.of name
    ∃ result p applied s₂ ks q,
      Session.classBytes answer name true s = some (result, p.session) ∧
      Session.answerWith answer (.applyChain bytes name) s₁ =
        some (.ofExcept .applied applied, s₂) ∧
      (∀ output, result = .ok output ↔ applied = .ok (some output)) ∧
      (result = .error (.notFound n.dotted) ↔ applied = .ok none) ∧
      (∀ error, applied = .error error → result = .error error) ∧
      load answer (s.service.config.reentranceDepth + 1) name (start s) = some (result, p) ∧
      Executes answer (.plain n) ks ((start s).remember s₁.memory).enter.delegating q ∧
      p.log.filterMap (callAt? 1) = ks.map Call.noted ∧
      (s₁.service.chainOf s₁.service.delegated.1).applyWith (Session.host answer).noting bytes n
        ({ s₁ with service := s₁.service.delegated.2 }, []) =
          some (applied, s₂, ks.map Call.made) ∧
      p.session.memory = s₂.memory ∧
      p.log.filterMap Event.demotion? = [] ∧
      p.session.service.demoted = s.service.demoted := by
  dsimp only
  obtain ⟨f, memory, hfind, rfl, rfl⟩ := find_of_classBytes hbytes
  obtain ⟨hrequested, hraw⟩ := names_of_find hfind
  rw [hunmap] at hraw
  have hexempt := Service.isExempt_eq hraw hrequested hload
  obtain ⟨applied, ks, p, q, s₂, hagrees⟩ :
      ∃ applied ks p q s₂, Agrees answer s name f memory applied ks p q s₂ := by
    cases hexcluded : s.service.exclusions.isTransformExcluded (ClassName.of name).dotted
        (some (ClassName.of name).dotted) with
    | true => exact ⟨_, _, _, _, _, agrees_of_excluded hfind (hexempt.trans hexcluded) hexcluded⟩
    | false =>
        have hcontext : f.context = .plain (ClassName.of name) := by
          unfold Found.context Context.plain
          rw [hraw, hrequested]
        exact exists_agrees_of_open hdepth hfind hcontext (hexempt.trans hexcluded) hexcluded
          hobserves
  refine ⟨answerOf f applied, p, applied, s₂, ks, q, ?_, applyChain_of_some hagrees.applies,
    fun output => answerOf_eq_ok, ?_, ?_, hagrees.loads, hagrees.executes, hagrees.calls,
    hagrees.notes, hagrees.memory_eq, hagrees.demotions, hagrees.demoted_eq⟩
  · rw [classBytes_eq, hagrees.loads]
    rfl
  · rw [← hrequested]
    exact answerOf_eq_notFound hagrees.ne_notFound
  · intro error happlied
    rw [happlied]
    rfl

end Agreement

/-- A transformer that counts its calls and asks how many transform prefixes there are. -/
def counting : Transformer Nat where
  name := "counting"
  isDelegationExcluded := false
  remapper := none
  transform _ c := .fetch fun count =>
    .store (count + 1) (.ask .generation fun _ => .finish (.keep c))

theorem observes_counting (inner : Request Nat → SessionM Nat Reply) (v : Service Nat) :
    counting.Observes (Session.answerWith inner) v := by
  intro context c
  refine .fetch fun count => .store (.ask ?_ fun _ => .finish _)
  intro s hs
  exact ⟨_, s, rfl, hs⟩

def counted : Session Nat where
  service := (Service.fresh .default {}).after
    [.addSource (.ofAnswers fun _ => .ok (some (Class.announcedBy 1))), .register counting,
      .register counting]
  memory := 0
  held := none

/-- The load and the chain both hand the class through two calls. -/
theorem load_eq_chain_counted :
    ∃ p : Pass Nat, ∃ s₂ : Session Nat, ∃ ks : List (Call Nat),
      Session.classBytes (Session.answerWith fun _ => failure) "A" true counted =
        some (.ok (Class.announcedBy 1), p.session) ∧
      Session.answerWith (Session.answerWith fun _ => failure)
        (.applyChain (Class.announcedBy 1) "A") counted =
          some (.applied (some (Class.announcedBy 1)), s₂) ∧
      p.log.filterMap (callAt? 1) = ks.map Call.noted ∧ ks.length = 2 ∧
      p.session.memory = 2 ∧ s₂.memory = 2 ∧ p.session.service.demoted = [] := by
  have hunmap : (counted.service.unmap (ClassName.of "A") counted.memory).1 = ClassName.of "A" :=
    rfl
  have hload : counted.service.exclusions.isLoadExcluded "A" none = false := by decide +kernel
  have hbytes : Session.classBytes (Session.answerWith fun _ => failure) "A" false counted =
      some (.ok (Class.announcedBy 1), counted) := rfl
  have hobserves : ∀ t ∈ counted.service.delegated.1,
      t.Observes (Session.answerWith fun _ => failure) counted.service.delegated.2 := by
    have hdelegated : counted.service.delegated.1 = [counting, counting] := by rfl
    intro t ht
    rw [hdelegated] at ht
    simp only [List.mem_cons, List.not_mem_nil, or_false, or_self] at ht
    rw [ht]
    exact observes_counting _ _
  obtain ⟨result, p, applied, s₂, ks, q, hresult, happlied, hok, -, -, hrun, -, hcalls, -, hmemory,
    -, hdemoted⟩ := load_eq_chain (Nat.le_refl 1) hunmap hload hbytes hobserves
  have hran : (load (Session.answerWith fun _ => failure) 2 "A" (start counted)).map
      (fun ran => (ran.1, (ran.2.log.filterMap (callAt? 1)).length, ran.2.session.memory)) =
      some (.ok (Class.announcedBy 1), 2, 2) := by
    decide +kernel
  rw [show load _ 2 "A" (start counted) = _ from hrun] at hran
  injection hran with hran
  injection hran with hgiven hran
  injection hran with htwo hcounted
  dsimp only at hgiven htwo hcounted
  subst hgiven
  rw [(hok _).mp rfl] at happlied
  refine ⟨p, s₂, ks, hresult, happlied, hcalls, ?_, hcounted, hmemory ▸ hcounted, hdemoted⟩
  rw [hcalls, List.length_map] at htwo
  exact htwo

end Pass

end ClassLoom
