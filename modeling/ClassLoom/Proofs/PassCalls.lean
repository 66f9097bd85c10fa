import ClassLoom.Proofs.ChainRun
import ClassLoom.Proofs.PassDemotion
import Mathlib.Data.List.Chain

/-!
# Whom a pass calls, and on what

A pass runs the list of delegated transformers that it was given when it started. By
the time it gets to the second of them the service may have another list: the first may
have registered transformers, excluded some, loaded classes and been demoted for it.
None of this reaches the loop, since the loop holds its list and asks nobody for it
again. So a statement about the calls of a pass needs no hypothesis on what transformers
do. It is an induction on the list, in which a call may take the pass anywhere.

Which calls are those of the pass, and which of passes inside it, can be told by their
depth: whatever is called during a call is called by a deeper pass (`Runs.calls_eq`).
What the calls hand to one another has nothing to do with the passes, and `Handed` says
it without them.
-/

namespace ClassLoom

namespace Pass

variable {σ : Type}

/-- A call of a transformer: the class that it received, and what it decided. -/
structure Call (σ : Type) where
  transformer : Transformer σ
  received : Class
  outcome : Outcome

/-- The transformer kept the class, and these are the bytes of what it kept. -/
def Call.HandsOn (k : Call σ) (options : WriterOptions) (output : Bytes) : Prop :=
  ∃ c, k.outcome = .keep c ∧ c.encodeValid options = .ok output

/-- What a log says of the call, which is by name. -/
def Call.noted (k : Call σ) : String × Class :=
  (k.transformer.name, k.received)

/-- Running these calls one after the other takes one pass to another. Before each of
them the flag is lowered, and after it the transformer is settled. -/
inductive Executes (answer : Request σ → SessionM σ Reply) (context : Context) :
    List (Call σ) → Pass σ → Pass σ → Prop where
  | done {p : Pass σ} : Executes answer context [] p p
  | call {t : Transformer σ} {c : Class} {outcome : Outcome} {ks : List (Call σ)}
      {p q r : Pass σ}
      (hrun : Runs answer (.routine (t.transform context c) outcome) (p.ready.calling t c) q)
      (hrest : Executes answer context ks ((q.called t).settled t) r) :
      Executes answer context (⟨t, c, outcome⟩ :: ks) p r

/-- The bytes of a class pass through transformers in these calls, and this is what
comes of it. -/
inductive Handed (options : WriterOptions) (name : ClassName) :
    List (Transformer σ) → Bytes → List (Call σ) → Applied → Prop where
  /-- No transformer is left. -/
  | done {bytes : Bytes} : Handed options name [] bytes [] (.ok (some bytes))
  /-- There is no class to call the next one on. -/
  | unreadable {t : Transformer σ} {ts : List (Transformer σ)} {bytes : Bytes}
      {cause : ClassFileError} (hbytes : Class.decodeValid bytes = .error cause) :
      Handed options name (t :: ts) bytes [] (.error (.decode name.dotted cause))
  /-- The next one vetoes the class or fails. -/
  | stop {t : Transformer σ} {ts : List (Transformer σ)} {bytes : Bytes} {c : Class}
      {outcome : Outcome} (hbytes : Class.decodeValid bytes = .ok c)
      (hfinal : ∀ output, t.conclude options name outcome ≠ .ok (some output)) :
      Handed options name (t :: ts) bytes [⟨t, c, outcome⟩] (t.conclude options name outcome)
  /-- The next one hands bytes to the one after it. -/
  | next {t : Transformer σ} {ts : List (Transformer σ)} {bytes output : Bytes} {c : Class}
      {outcome : Outcome} {ks : List (Call σ)} {result : Applied}
      (hbytes : Class.decodeValid bytes = .ok c)
      (hkeep : t.conclude options name outcome = .ok (some output))
      (hrest : Handed options name ts output ks result) :
      Handed options name (t :: ts) bytes (⟨t, c, outcome⟩ :: ks) result

/-! ## What is handed on -/

section Handing

variable {options : WriterOptions} {name : ClassName} {ts : List (Transformer σ)}
  {bytes : Bytes} {ks : List (Call σ)} {result : Applied}

theorem Call.handsOn_iff {k : Call σ} {output : Bytes} :
    k.HandsOn options output ↔
      k.transformer.conclude options name k.outcome = .ok (some output) := by
  constructor
  · intro h
    obtain ⟨c, hkeep, hencode⟩ := h
    rw [hkeep]
    exact k.transformer.conclude_keep_of_ok name hencode
  · intro h
    exact k.transformer.conclude_eq_some name h

theorem Handed.isPrefix (h : Handed options name ts bytes ks result) :
    ks.map Call.transformer <+: ts := by
  induction h with
  | done | unreadable _ => exact List.nil_prefix
  | stop _ _ => exact List.prefix_append [_] _
  | next _ _ _ ih => exact List.cons_prefix_cons.mpr ⟨rfl, ih⟩

theorem Handed.head (h : Handed options name ts bytes ks result) :
    ∀ k ∈ ks.head?, Class.decodeValid bytes = .ok k.received := by
  cases h with
  | done | unreadable _ => simp
  | stop hbytes _ => simpa using hbytes
  | next hbytes _ _ => simpa using hbytes

theorem Handed.isChain (h : Handed options name ts bytes ks result) :
    ks.IsChain fun k k' =>
      ∃ output, k.HandsOn options output ∧ Class.decodeValid output = .ok k'.received := by
  induction h with
  | done | unreadable _ => exact .nil
  | stop _ _ => exact .singleton _
  | next _ hkeep hrest ih =>
      refine List.isChain_cons.mpr ⟨?_, ih⟩
      intro k' hk'
      exact ⟨_, Call.handsOn_iff.mpr hkeep, hrest.head k' hk'⟩

theorem forall_getLast?_cons {α : Type} {P : α → Prop} {a : α} {as : List α}
    (hnil : as = [] → P a) (h : ∀ b ∈ as.getLast?, P b) : ∀ b ∈ (a :: as).getLast?, P b := by
  cases as with
  | nil => simpa using hnil rfl
  | cons b bs =>
      rw [List.getLast?_cons_cons]
      exact h

/-- Bytes come out when every transformer kept the class, and they are those of the
last. -/
theorem Handed.of_output {output : Bytes}
    (h : Handed options name ts bytes ks (.ok (some output))) :
    ks.map Call.transformer = ts ∧ (∀ k ∈ ks, ∃ out, k.HandsOn options out) ∧
      (ks = [] → output = bytes) ∧ ∀ k ∈ ks.getLast?, k.HandsOn options output := by
  generalize hresult : (Except.ok (some output) : Applied) = result at h
  induction h with
  | done =>
      cases hresult
      simp
  | unreadable _ => cases hresult
  | stop _ hfinal => exact absurd hresult.symm (hfinal output)
  | @next t ts bytes out c outcome ks result _ hkeep hrest ih =>
      obtain ⟨hall, hkept, hnone, hlast⟩ := ih hresult
      have hfirst : Call.HandsOn ⟨t, c, outcome⟩ options out := Call.handsOn_iff.mpr hkeep
      refine ⟨by rw [List.map_cons, hall], List.forall_mem_cons.mpr ⟨⟨out, hfirst⟩, hkept⟩,
        by simp, forall_getLast?_cons ?_ hlast⟩
      intro hks
      rw [hnone hks]
      exact hfirst

/-- A call that hands nothing on is the last one, and what it came to is what the whole
comes to. -/
theorem Handed.of_final {before after : List (Call σ)} {k : Call σ}
    (h : Handed options name ts bytes (before ++ k :: after) result)
    (hfinal : ∀ output, k.transformer.conclude options name k.outcome ≠ .ok (some output)) :
    after = [] ∧ result = k.transformer.conclude options name k.outcome := by
  induction before generalizing ts bytes with
  | nil =>
      cases h with
      | stop _ _ => exact ⟨rfl, rfl⟩
      | next _ hkeep _ => exact absurd hkeep (hfinal _)
  | cons first before ih =>
      generalize hks : first :: before ++ k :: after = ks at h
      cases h with
      | done | unreadable _ => cases hks
      | stop _ _ => simp at hks
      | next _ _ hrest =>
          cases hks
          exact ih hrest

/-- If the class cannot be decoded, all calls have handed on, and those that were to come
have not been made. -/
theorem Handed.of_decode {n : String} {cause : ClassFileError}
    (h : Handed options name ts bytes ks (.error (.decode n cause))) :
    n = name.dotted ∧ ks.map Call.transformer ≠ ts ∧
      (ks = [] → Class.decodeValid bytes = .error cause) ∧
      ∀ k ∈ ks.getLast?, ∃ out, k.HandsOn options out ∧ Class.decodeValid out = .error cause := by
  generalize hresult : (Except.error (.decode n cause) : Applied) = result at h
  induction h with
  | done => cases hresult
  | unreadable hbytes =>
      cases hresult
      simpa using hbytes
  | stop _ _ => exact absurd hresult.symm (Transformer.conclude_ne_decode _ _)
  | @next t ts bytes out c outcome ks result _ hkeep hrest ih =>
      obtain ⟨hname, hmore, hnone, hlast⟩ := ih hresult
      have hfirst : Call.HandsOn ⟨t, c, outcome⟩ options out := Call.handsOn_iff.mpr hkeep
      refine ⟨hname, by simpa using hmore, by simp, forall_getLast?_cons ?_ hlast⟩
      intro hks
      exact ⟨out, hfirst, hnone hks⟩

end Handing

/-! ## Which calls are those of a pass -/

/-- The call that is noted, if the pass that makes it is so deep. -/
def callAt? (depth : Nat) : Event σ → Option (String × Class)
  | .calling t k c => if k = depth then some (t, c) else none
  | _ => none

section Depths

variable {answer : Request σ → SessionM σ Reply} {context : Context} {job : Job σ} {p q : Pass σ}
  {k : Nat}

theorem filterMap_after_call (p : Pass σ) (t : Transformer σ) :
    ((p.called t).settled t).events.filterMap (callAt? k) = p.events.filterMap (callAt? k) := by
  unfold settled
  split
  · rfl
  · rfl

theorem filterMap_calling_of_ne (t : Transformer σ) (c : Class) (h : p.guard.depth ≠ k) :
    (p.calling t c).events.filterMap (callAt? k) = p.events.filterMap (callAt? k) := by
  simp [callAt?, h]

/-- What is called during a job is called by passes that are deeper, apart from the calls
that the job is there to make. -/
theorem Runs.calls_eq (h : Runs answer job p q) (hk : k + job.slack ≤ p.guard.depth) :
    q.events.filterMap (callAt? k) = p.events.filterMap (callAt? k) := by
  induction h with
  | missing _ | exempt _ _ | finish | done | unreadable _ => rfl
  | tooDeep _ _ _ => rfl
  | pass _ _ _ _ ih => exact ih (Nat.succ_le_succ hk)
  | load hload _ ihload ihrest =>
      rw [ihrest (by rw [hload.depth_eq]; exact hk), ihload hk]
      rfl
  | ask _ _ ih => exact ih hk
  | fetch _ ih => exact ih hk
  | store _ ih => exact ih hk
  | @stop options context t ts bytes c outcome p q _ _ _ ih =>
      -- this call is noted at the depth of `p`, which the slack keeps away from `k`
      have hless : k + 1 ≤ p.guard.depth := hk
      rw [filterMap_after_call, ih (Nat.le_of_succ_le hless)]
      exact filterMap_calling_of_ne t c (Nat.ne_of_gt hless)
  | @next options context t ts bytes output c outcome result p q r _ hcall _ _ ihcall ihrest =>
      have hless : k + 1 ≤ p.guard.depth := hk
      rw [ihrest (by rw [hcall.depth_after_call]; exact hless), filterMap_after_call,
        ihcall (Nat.le_of_succ_le hless)]
      exact filterMap_calling_of_ne t c (Nat.ne_of_gt hless)

theorem Executes.calls_eq {ks : List (Call σ)} (h : Executes answer context ks p q) :
    q.guard.depth = p.guard.depth ∧
      q.events.filterMap (callAt? p.guard.depth) =
        (ks.map Call.noted).reverse ++ p.events.filterMap (callAt? p.guard.depth) := by
  induction h with
  | done => exact ⟨rfl, rfl⟩
  | @call t c outcome ks p q r hrun _ ih =>
      obtain ⟨hdepth, hcalls⟩ := ih
      rw [hrun.depth_after_call] at hdepth hcalls
      refine ⟨hdepth, ?_⟩
      have hinner := hrun.calls_eq (k := p.guard.depth) (Nat.le_refl _)
      rw [hcalls, filterMap_after_call, hinner]
      simp [callAt?, Call.noted, Guard.clear]

end Depths

/-! ## A pass makes its calls -/

section Calls

variable {answer : Request σ → SessionM σ Reply} {options : WriterOptions} {context : Context}
  {ts : List (Transformer σ)} {bytes : Bytes} {result : Applied} {p q : Pass σ}

/-- Passing bytes through transformers is making calls. It may end with the flag lowered
for a call that is not made. -/
theorem Runs.exists_calls (h : Runs answer (.transform options context ts bytes result) p q) :
    ∃ ks r, Executes answer context ks p r ∧ Handed options context.name ts bytes ks result ∧
      q.session = r.session ∧ q.events = r.events := by
  induction ts generalizing bytes p with
  | nil =>
      cases h
      exact ⟨[], _, .done, .done, rfl, rfl⟩
  | cons t ts ih =>
      cases h with
      | unreadable hbytes => exact ⟨[], p, .done, .unreadable hbytes, rfl, rfl⟩
      | stop hbytes hcall hfinal =>
          exact ⟨_, _, .call hcall .done, .stop hbytes hfinal, rfl, rfl⟩
      | next hbytes hcall hkeep hrest =>
          obtain ⟨ks, r, hexecutes, hhanded, hsession, hevents⟩ := ih hrest
          exact ⟨_, r, .call hcall hexecutes, .next hbytes hkeep hhanded, hsession, hevents⟩

/-- Passing bytes through transformers returns if every call returns that is made after
calls that did. -/
theorem exists_runAll {ld : String → PassM σ (Except PipelineError Bytes)}
    (hld : LoadsRun answer ld) (options : WriterOptions) (bytes : Bytes)
    (h : ∀ ks q, Executes answer context ks p q → ∀ t ∈ ts, ∀ c,
      (t.transform context c).run (host ld answer) (q.ready.calling t c) ≠ none) :
    ∃ result q, runAll (host ld answer) options context ts bytes p = some (result, q) := by
  induction ts generalizing bytes p with
  | nil => exact ⟨_, p, rfl⟩
  | cons t ts ih =>
      cases hbytes : Class.decodeValid bytes with
      | error cause => exact ⟨_, _, runAll_of_unreadable hbytes p⟩
      | ok c =>
          have hreturns := h [] p .done t List.mem_cons_self c
          obtain ⟨⟨outcome, q⟩, hrun⟩ := Option.ne_none_iff_exists'.mp hreturns
          rw [runAll_of_readable hbytes, hrun, Option.bind_some]
          dsimp only
          split
          · refine ih _ ?_
            intro ks r hrest u hu
            exact h _ r (.call (hld.routine hrun) hrest) u (List.mem_cons_of_mem t hu)
          · exact ⟨_, _, rfl⟩

end Calls

/-! ## The pass of a load -/

section Loads

variable {answer : Request σ → SessionM σ Reply} {s : Session σ} {name : String} {f : Found}
  {memory : σ}

theorem names_of_find {v : Service σ} {memory' : σ}
    (hfind : v.find name memory = (.ok f, memory')) :
    f.requested = ClassName.of name ∧ f.raw = (v.unmap (ClassName.of name) memory).1 := by
  unfold Service.find at hfind
  rw [stateM_bind, stateM_bind] at hfind
  generalize Source.firstAnswer _ _ = asked at hfind
  match asked with
  | (.error fault, _) => cases hfind
  | (.ok none, _) => cases hfind
  | (.ok (some bytes), _) =>
      cases hfind
      exact ⟨rfl, rfl⟩

theorem isOver_start (hdepth : 1 ≤ s.service.config.reentranceDepth) :
    (start s).guard.push.isOver = false := by
  simp only [start, Guard.new, Guard.push, Guard.isOver, Nat.zero_add, decide_eq_false_iff_not,
    Nat.not_lt]
  exact hdepth

theorem classBytes_eq (answer : Request σ → SessionM σ Reply) (name : String) (s : Session σ) :
    Session.classBytes answer name true s =
      (load answer (s.service.config.reentranceDepth + 1) name (start s)).map
        fun (result, p) => (result, p.session) := by
  unfold Session.classBytes Session.loadBytes
  rfl

theorem load_of_runAll (hdepth : 1 ≤ s.service.config.reentranceDepth)
    (hfind : s.service.find name s.memory = (.ok f, memory))
    (hopen : s.service.isExempt f = false) {room : Nat} {applied : Applied} {q : Pass σ}
    (h : runAll (host (load answer room) answer) s.service.options f.context
      s.service.delegated.1 f.bytes ((start s).remember memory).enter.delegating =
        some (applied, q)) :
    load answer (room + 1) name (start s) = some (answerOf f applied, q.exit) := by
  have hfind : (start s).session.service.find name (start s).session.memory = (.ok f, memory) :=
    hfind
  have hopen : (start s).session.service.isExempt f = false := hopen
  rw [load_succ, loadWith_of_room hfind hopen (isOver_start hdepth)]
  exact congrArg (Option.map _) h

/-- In the log of the load the calls of its pass are those at depth one. -/
theorem calls_log_exit {context : Context} {ks : List (Call σ)} {q r : Pass σ}
    (h : Executes answer context ks ((start s).remember memory).enter.delegating q)
    (hevents : r.events = q.events) :
    r.exit.log.filterMap (callAt? 1) = ks.map Call.noted := by
  have hcalls := h.calls_eq.2
  have hfirst : ((start s).remember memory).enter.delegating.guard.depth = 1 := rfl
  rw [hfirst] at hcalls
  unfold log
  rw [List.filterMap_reverse, exit_events, List.filterMap_cons_none rfl, hevents, hcalls]
  simp [callAt?, start]

theorem exists_calls_of_load (hdepth : 1 ≤ s.service.config.reentranceDepth)
    (hfind : s.service.find name s.memory = (.ok f, memory))
    (hopen : s.service.isExempt f = false) {room : Nat} {result : Except PipelineError Bytes}
    {p : Pass σ} (h : load answer room name (start s) = some (result, p)) :
    ∃ ks q applied, Executes answer f.context ks ((start s).remember memory).enter.delegating q ∧
      Handed s.service.options f.raw s.service.delegated.1 f.bytes ks applied ∧
      result = answerOf f applied ∧ p.session = q.session ∧
      p.log.filterMap (callAt? 1) = ks.map Call.noted := by
  have hroom := isOver_start hdepth
  cases runs_of_load room _ _ _ _ h with
  | missing hmissing =>
      have hsame := hfind.symm.trans hmissing
      cases hsame
  | exempt hfind' hexempt =>
      have hsame := hfind.symm.trans hfind'
      cases hsame
      have hopen' := hexempt.symm.trans hopen
      cases hopen'
  | tooDeep hfind' _ hover =>
      rw [hroom] at hover
      cases hover
  | @pass _ _ q f' memory' applied hfind' _ _ hrun =>
      have hsame := hfind.symm.trans hfind'
      cases hsame
      obtain ⟨ks, r, hexecutes, hhanded, hsession, hevents⟩ := hrun.exists_calls
      exact ⟨ks, r, applied, hexecutes, hhanded, rfl, hsession, calls_log_exit hexecutes hevents⟩

theorem answerOf_eq_ok {f : Found} {applied : Applied} {bytes : Bytes} :
    answerOf f applied = .ok bytes ↔ applied = .ok (some bytes) := by
  match applied with
  | .ok (some output) => simp [answerOf]
  | .ok none | .error error => simp [answerOf]

theorem answerOf_eq_decode {f : Found} {applied : Applied} {n : String} {cause : ClassFileError}
    (h : answerOf f applied = .error (.decode n cause)) :
    applied = .error (.decode n cause) := by
  match applied with
  | .ok (some output) | .ok none => cases h
  | .error error => exact congrArg Except.error (Except.error.inj h)

/-- The pass over a class calls the delegated transformers that there are when it starts,
in order and up to the first that does not keep the class, whatever they do to the
service. The first receives the class that was found, and each next one what its
predecessor kept, encoded and decoded. Bytes come out when all of them kept the class; a
veto or an error is the last thing that happens, and is what comes out. -/
theorem load_calls_in_order (hdepth : 1 ≤ s.service.config.reentranceDepth)
    (hfind : s.service.find name s.memory = (.ok f, memory))
    (hopen : s.service.isExempt f = false) (answer : Request σ → SessionM σ Reply) :
    let d := s.service.config.reentranceDepth
    let ts := s.service.delegated.1
    let options := s.service.options
    let first := ((start s).remember memory).enter.delegating
    ((∀ ks q, Executes answer f.context ks first q → ∀ t ∈ ts, ∀ c,
        (t.transform f.context c).run (host (load answer d) answer) (q.ready.calling t c) ≠ none) →
      ∃ result s', Session.classBytes answer name true s = some (result, s')) ∧
    ∀ result s', Session.classBytes answer name true s = some (result, s') →
      ∃ ks p q,
        load answer (d + 1) name (start s) = some (result, p) ∧ p.session = s' ∧
        Executes answer f.context ks first q ∧ q.session = s' ∧
        p.log.filterMap (callAt? 1) = ks.map Call.noted ∧
        ks.map Call.transformer <+: ts ∧
        (∀ k ∈ ks.head?, Class.decodeValid f.bytes = .ok k.received) ∧
        (ks.IsChain fun k k' => ∃ output,
          k.HandsOn options output ∧ Class.decodeValid output = .ok k'.received) ∧
        (∀ bytes, result = .ok bytes →
          ks.map Call.transformer = ts ∧ (∀ k ∈ ks, ∃ output, k.HandsOn options output) ∧
            (ks = [] → bytes = f.bytes) ∧ ∀ k ∈ ks.getLast?, k.HandsOn options bytes) ∧
        (∀ before k after, ks = before ++ k :: after → k.outcome = .drop →
          after = [] ∧ result = .error (.notFound (ClassName.of name).dotted)) ∧
        (∀ before k after error, ks = before ++ k :: after →
          k.transformer.conclude options f.raw k.outcome = .error error →
            after = [] ∧ result = .error error) ∧
        ∀ n cause, result = .error (.decode n cause) →
          n = f.raw.dotted ∧ ks.map Call.transformer ≠ ts ∧
            (ks = [] → Class.decodeValid f.bytes = .error cause) ∧
            ∀ k ∈ ks.getLast?, ∃ output,
              k.HandsOn options output ∧ Class.decodeValid output = .error cause := by
  dsimp only
  constructor
  · intro hreturns
    obtain ⟨applied, q, hall⟩ :=
      exists_runAll (runs_of_load s.service.config.reentranceDepth) s.service.options f.bytes
        hreturns
    refine ⟨answerOf f applied, q.exit.session, ?_⟩
    rw [classBytes_eq, load_of_runAll hdepth hfind hopen hall]
    rfl
  · intro result s' hbytes
    rw [classBytes_eq] at hbytes
    obtain ⟨⟨result', p⟩, hload, hsame⟩ := Option.map_eq_some_iff.mp hbytes
    cases hsame
    obtain ⟨ks, q, applied, hexecutes, hhanded, rfl, hsession, hlog⟩ :=
      exists_calls_of_load hdepth hfind hopen hload
    refine ⟨ks, p, q, hload, rfl, hexecutes, hsession.symm, hlog, hhanded.isPrefix, hhanded.head,
      hhanded.isChain, ?_, ?_, ?_, ?_⟩
    · intro bytes hresult
      rw [answerOf_eq_ok.mp hresult] at hhanded
      exact hhanded.of_output
    · intro before k after hks hdrop
      rw [hks] at hhanded
      obtain ⟨hafter, happlied⟩ := hhanded.of_final (by simp [hdrop, Transformer.conclude])
      refine ⟨hafter, ?_⟩
      rw [happlied, hdrop, ← (names_of_find hfind).1]
      rfl
    · intro before k after error hks hconclude
      rw [hks] at hhanded
      obtain ⟨hafter, happlied⟩ := hhanded.of_final (by simp [hconclude])
      refine ⟨hafter, ?_⟩
      rw [happlied, hconclude]
      rfl
    · intro n cause hresult
      rw [answerOf_eq_decode hresult] at hhanded
      exact hhanded.of_decode

end Loads

/-- A transformer that excludes another one and loads the class that it edits. -/
def meddling : Transformer Unit where
  name := "meddling"
  isDelegationExcluded := false
  remapper := none
  transform context c :=
    .ask (.excludeTransformer "idle") fun _ =>
      .load context.name.dotted fun _ => .finish (.keep c)

/-- A service in which the one comes before the other. -/
def meddled : Session Unit where
  service := (Service.fresh .default {}).after
    [.addSource (.ofAnswers fun _ => .ok (some (Class.announcedBy 1))), .register meddling,
      .register (.editing "idle" id)]
  memory := ()
  held := none

/-- The pass calls both, although the second is excluded and the first demoted before the
second gets its turn. -/
theorem load_calls_in_order_meddled :
    ∃ s', ∃ ks : List (Call Unit), ∃ p,
      Session.classBytes (Session.answerWith fun _ => failure) "A" true meddled =
        some (.ok (Class.announcedBy 1), s') ∧
      load (Session.answerWith fun _ => failure) 2 "A" (start meddled) =
        some (.ok (Class.announcedBy 1), p) ∧
      p.log.filterMap (callAt? 1) = ks.map Call.noted ∧
      ks.map (fun k => k.transformer.name) = ["meddling", "idle"] ∧
      s'.service.demoted = ["meddling"] ∧ s'.service.delegated.1.map Transformer.name = [] := by
  have hnoted : (Session.classBytes (Session.answerWith fun _ => failure) "A" true meddled).map
      (fun answered => (answered.1, answered.2.service.demoted,
        answered.2.service.delegated.1.map Transformer.name)) =
      some (.ok (Class.announcedBy 1), ["meddling"], []) := by
    decide +kernel
  obtain ⟨⟨result, s'⟩, hbytes, hsame⟩ := Option.map_eq_some_iff.mp hnoted
  injection hsame with hresult hsame
  injection hsame with hdemoted hnone
  have hfind : meddled.service.find "A" meddled.memory =
      (.ok ⟨ClassName.of "A", ClassName.of "A", Class.announcedBy 1⟩, ()) := rfl
  have hopen : meddled.service.isExempt
      ⟨ClassName.of "A", ClassName.of "A", Class.announcedBy 1⟩ = false := by decide +kernel
  obtain ⟨ks, p, q, hload, -, -, -, hlog, -, -, -, hall, -⟩ :=
    (load_calls_in_order (Nat.le_refl 1) hfind hopen (Session.answerWith fun _ => failure)).2
      result s' hbytes
  subst hresult
  refine ⟨s', ks, p, hbytes, hload, hlog, ?_, hdemoted, hnone⟩
  have hdelegated : meddled.service.delegated.1.map Transformer.name = ["meddling", "idle"] := by
    decide +kernel
  rw [← hdelegated, ← (hall _ rfl).1, List.map_map]
  rfl

end Pass

end ClassLoom
