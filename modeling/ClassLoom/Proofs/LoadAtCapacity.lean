import ClassLoom.Proofs.PassDemotion

/-!
# Loads at the capacity

A transformer that is called by a pass which is as deep as passes may be still gets an
answer when it asks for a class. The pass over that class is one too deep, so it runs
nothing and gives the bytes as they were found. To the transformer the load is a raw lookup
of the class, made when it asks, whatever it has loaded before. Only the flag tells the two
apart: it goes up if there is such a class and it is not exempt.

`Pass.lookUp` is the raw lookup as something that happens in a pass, and `Pass.loadAbove`
is a load in which the transformers of the deepest passes look up the classes that they
ask for. Loads are of this kind (`load_eq_loadAbove`). The induction is on how much deeper
passes may get. What carries it is that hosts whose loads agree in the passes of one depth
run the transformers of these passes alike, because after each load the depth is again
what it was.
-/

namespace ClassLoom

namespace Pass

variable {σ : Type}

/-! ## Lookups in a pass -/

/-- The pass after a raw lookup that left the given session. The lookup counts as a pass
that is too deep, unless the class is missing or exempt. -/
def lookedUp (p : Pass σ) (name : String) (session : Session σ) : Pass σ where
  session := session
  guard := { p.guard with raised := p.guard.raised || p.session.opens name }
  events :=
    (if p.session.opens name then [.left p.guard.depth, .entered (p.guard.depth + 1)] else []) ++
      p.events

/-- Looks up a class in place of loading it. -/
def lookUp (answer : Request σ → SessionM σ Reply) (name : String) :
    PassM σ (Except PipelineError Bytes) := fun p =>
  (Session.classBytes answer name false p.session).map fun (result, session) =>
    (result, p.lookedUp name session)

/-- Loads a class where passes may get so much deeper. The transformers of the deepest
passes look up the classes that they ask for. -/
def loadAbove (answer : Request σ → SessionM σ Reply) :
    Nat → String → PassM σ (Except PipelineError Bytes)
  | 0, name => lookUp answer name
  | more + 1, name => loadWith (host (loadAbove answer more) answer) name

section LookUp

variable {answer : Request σ → SessionM σ Reply}
  {ld : String → PassM σ (Except PipelineError Bytes)} {p : Pass σ} {name : String}
  {session : Session σ}

theorem lookUp_of_find {found : Except PipelineError Found} {memory : σ}
    (hfind : p.session.service.find name p.session.memory = (found, memory)) :
    lookUp answer name p =
      some (found.map Found.bytes, p.lookedUp name { p.session with memory }) := by
  unfold lookUp
  rw [Session.classBytes_of_find hfind]
  rfl

theorem lookedUp_of_closed (h : p.session.opens name = false) :
    p.lookedUp name session = p.withSession session := by
  simp [lookedUp, withSession, h]

theorem lookedUp_of_opens (hcapacity : p.guard.depth = p.guard.maxDepth)
    (h : p.session.opens name = true) :
    p.lookedUp name session = (p.withSession session).enter.exit := by
  simp [lookedUp, withSession, enter, exit, Guard.push, Guard.leave, hcapacity, h]

/-- At the capacity a load is a raw lookup, whatever the loads of deeper passes would do. -/
theorem loadWith_eq_lookUp (hcapacity : p.guard.depth = p.guard.maxDepth) (name : String) :
    loadWith (host ld answer) name p = lookUp answer name p := by
  have hover : p.guard.push.isOver = true := by simp [Guard.isOver, Guard.push, hcapacity]
  rcases load_cases p name with
    ⟨error, memory, hfind⟩ | ⟨f, memory, hfind, hexempt | ⟨hopen, -⟩⟩
  · rw [loadWith_of_missing hfind, lookUp_of_find hfind,
      lookedUp_of_closed (opens_of_missing hfind)]
    rfl
  · have hclosed : p.session.opens name = false := by simp [opens_of_found hfind, hexempt]
    rw [loadWith_of_exempt hfind hexempt, lookUp_of_find hfind, lookedUp_of_closed hclosed]
    rfl
  · have hopens : p.session.opens name = true := by simp [opens_of_found hfind, hopen]
    rw [loadWith_of_tooDeep hfind hopen hover, lookUp_of_find hfind,
      lookedUp_of_opens hcapacity hopens]
    rfl

end LookUp

/-! ## Hosts that agree in the passes of a depth -/

/-- The loads agree in passes that are `k` deep where `d` is the capacity. -/
def AgreeAt (k d : Nat) (ld ld' : String → PassM σ (Except PipelineError Bytes)) : Prop :=
  ∀ name (p : Pass σ), p.guard.depth = k → p.guard.maxDepth = d → ld name p = ld' name p

section Agree

variable {answer : Request σ → SessionM σ Reply}
  {ld ld' : String → PassM σ (Except PipelineError Bytes)} {k d : Nat}

theorem guard_of_onSession {α : Type} {act : SessionM σ α} {a : α} {p q : Pass σ}
    (h : onSession act p = some (a, q)) : q.guard = p.guard := by
  obtain ⟨⟨b, s⟩, -, hsame⟩ := Option.map_eq_some_iff.mp h
  cases hsame
  rfl

theorem AgreeAt.routine (hagree : AgreeAt k d ld ld') (hld : LoadsRun answer ld) (r : Routine σ)
    {p : Pass σ} (hk : p.guard.depth = k) (hd : p.guard.maxDepth = d) :
    r.run (host ld answer) p = r.run (host ld' answer) p := by
  match r with
  | .finish _ => rfl
  | .load name resume =>
      rw [run_load, run_load, ← hagree name (p.asking name) hk hd]
      refine Option.bind_congr fun ⟨result, q⟩ hload => ?_
      have hrun := hld _ _ _ _ hload
      exact hagree.routine hld (resume result) (hrun.depth_eq.trans hk) (hrun.maxDepth_eq.trans hd)
  | .ask request resume =>
      rw [run_ask, run_ask]
      refine Option.bind_congr fun ⟨reply, q⟩ hask => ?_
      have hguard := guard_of_onSession hask
      exact hagree.routine hld (resume reply) (by rw [hguard, hk]) (by rw [hguard, hd])
  | .fetch resume => exact hagree.routine hld (resume p.session.memory) hk hd
  | .store memory rest => exact hagree.routine hld rest (p := p.remember memory) hk hd

theorem AgreeAt.transform (hagree : AgreeAt k d ld ld') (hld : LoadsRun answer ld)
    (options : WriterOptions) (context : Context) (ts : List (Transformer σ)) (bytes : Bytes)
    {p : Pass σ} (hk : p.guard.depth = k) (hd : p.guard.maxDepth = d) :
    runAll (host ld answer) options context ts bytes p =
      runAll (host ld' answer) options context ts bytes p := by
  induction ts generalizing bytes p with
  | nil => rfl
  | cons t ts ih =>
      cases hbytes : Class.decodeValid bytes with
      | error cause => rw [runAll_of_unreadable hbytes, runAll_of_unreadable hbytes]
      | ok c =>
          rw [runAll_of_readable hbytes, runAll_of_readable hbytes,
            ← hagree.routine hld (t.transform context c) (p := p.ready.calling t c) hk hd]
          refine Option.bind_congr fun ⟨outcome, q⟩ hcall => ?_
          have hrun := hld.routine hcall
          dsimp only
          split
          · next output hkeep =>
              exact ih output (hrun.depth_after_call.trans hk) (hrun.maxDepth_after_call.trans hd)
          · rfl

/-- What a load does is up to the pass that it starts, which is one deeper. -/
theorem AgreeAt.loadWith (hagree : AgreeAt (k + 1) d ld ld') (hld : LoadsRun answer ld) :
    AgreeAt k d (loadWith (host ld answer)) (loadWith (host ld' answer)) := by
  intro name p hk hd
  rcases load_cases p name with
    ⟨error, memory, hfind⟩ | ⟨f, memory, hfind, hexempt | ⟨hopen, hover | hroom⟩⟩
  · rw [loadWith_of_missing hfind, loadWith_of_missing hfind]
  · rw [loadWith_of_exempt hfind hexempt, loadWith_of_exempt hfind hexempt]
  · rw [loadWith_of_tooDeep hfind hopen hover, loadWith_of_tooDeep hfind hopen hover]
  · rw [loadWith_of_room hfind hopen hroom, loadWith_of_room hfind hopen hroom,
      hagree.transform hld _ _ _ _ (p := (p.remember memory).enter.delegating)
        (congrArg Nat.succ hk) hd]

/-- Where passes may get `more` deeper, loading is loading with raw lookups at the
capacity. -/
theorem load_eq_loadAbove (answer : Request σ → SessionM σ Reply) (more : Nat)
    (hk : k + more = d) : AgreeAt k d (load answer (more + 1)) (loadAbove answer more) := by
  induction more generalizing k with
  | zero =>
      intro name p hdepth hmaxDepth
      exact loadWith_eq_lookUp (by omega) name
  | succ more ih => exact (ih (by omega)).loadWith (runs_of_load (more + 1))

end Agree

/-! ## Loads at large -/

/-- At the capacity a load is a raw lookup. Where a pass is as deep as passes may be and one of
its transformers asks for a class, the answer is what a raw lookup in the session as it is then
would give, and it leaves the session as the lookup would: no transformer runs, and of the
service nothing changes. The flag goes up if the class is there and not exempt, and otherwise
it stays as it was. So a load comes to the same, with everything that happens on the way, if
the transformers of its deepest passes look up the classes that they ask for. -/
theorem load_at_capacity (answer : Request σ → SessionM σ Reply) :
    (∀ room (p : Pass σ) name, p.guard.depth = p.guard.maxDepth →
      ∃ result memory,
        Session.classBytes answer name false p.session =
          some (result, { p.session with memory }) ∧
        (host (load answer (room + 1)) answer).load name p =
          some (result,
            { session := { p.session with memory }
              guard := { p.guard with raised := p.guard.raised || p.session.opens name }
              events := (if p.session.opens name then
                  [.left p.guard.depth, .entered (p.guard.depth + 1)] else []) ++
                .loading name p.guard.depth p.session :: p.events })) ∧
    ∀ (s : Session σ) name,
      load answer (s.service.config.reentranceDepth + 1) name (start s) =
        loadAbove answer s.service.config.reentranceDepth name (start s) := by
  refine ⟨fun room p name hcapacity => ?_, fun s name => ?_⟩
  · obtain ⟨found, memory, hfind⟩ : ∃ found memory,
        p.session.service.find name p.session.memory = (found, memory) := ⟨_, _, rfl⟩
    refine ⟨found.map Found.bytes, memory, Session.classBytes_of_find hfind, ?_⟩
    rw [load_host, load_succ, loadWith_eq_lookUp (p := p.asking name) hcapacity,
      lookUp_of_find (p := p.asking name) hfind]
    rfl
  · exact load_eq_loadAbove answer _ (Nat.zero_add _) name (start s) rfl rfl

/-- A transformer that loads the class which it edits gets the bytes that the source has. It is
demoted for that, as it would be if it had looked them up. -/
theorem revisited_looks_up :
    let answer : Request Unit → SessionM Unit Reply := fun _ => failure
    let p := (start revisited).enter
    p.guard.depth = p.guard.maxDepth ∧
      (∃ q, (host (load answer 1) answer).load "A" p = some (.ok (Class.announcedBy 1), q) ∧
        q.guard.raised = true ∧ q.session.service = p.session.service ∧
        q.log = [.entered 1, .loading "A" 1 p.session, .entered 2, .left 1]) ∧
      (loadAbove answer 1 "A" (start revisited)).map
        (fun loaded => loaded.2.session.service.demoted) = some ["revisiting"] := by
  have hopens : revisited.opens "A" = true := by decide +kernel
  intro answer p
  have hcapacity : p.guard.depth = p.guard.maxDepth := rfl
  obtain ⟨hasked, hwhole⟩ := load_at_capacity answer
  obtain ⟨result, memory, hraw, hload⟩ := hasked 0 p "A" hcapacity
  have hfound : Session.classBytes answer "A" false p.session =
      some (.ok (Class.announcedBy 1), revisited) := rfl
  have hresult : result = .ok (Class.announcedBy 1) :=
    congrArg Prod.fst (Option.some.inj (hraw.symm.trans hfound))
  subst hresult
  have hraised : (p.guard.raised || p.session.opens "A") = true := by
    rw [show p.session.opens "A" = true from hopens, Bool.or_true]
  refine ⟨hcapacity, ⟨_, hload, hraised, rfl, ?_⟩, ?_⟩
  · unfold log
    simp only [show p.session.opens "A" = true from hopens, if_true]
    rfl
  · have hsame := hwhole revisited "A"
    rw [show revisited.service.config.reentranceDepth = 1 from rfl] at hsame
    rw [← hsame]
    decide +kernel

end Pass

end ClassLoom
