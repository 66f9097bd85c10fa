import ClassLoom.Proofs.ClassFileRoundTrip
import ClassLoom.Proofs.ServiceHistory

/-!
# How deep loads nest

A transformer may load classes, and each of these loads is a pass that may run
transformers, which may load classes again, the class that is being transformed
included. Nothing in the classes bounds this. What does is the depth that the guard
counts, together with two facts about it: the pass that is one deeper than the
capacity runs no transformer, and however a pass ends, the depth is then what it was
before (`Pass.Runs.depth_eq`).

So loads end by induction on the capacity that is left (`loadsReturn`). This needs
that the transformers run other transformers in no other way, and that they register
only such as do not either; a transformer of that kind is tame. The bounds on a run are
an invariant of what has happened: where a job is done, as many calls are in progress
as passes are under way, and while the transformers of a pass are run one after the
other, one less (`Pass.Fits`).
-/

namespace ClassLoom

variable {σ : Type}

/-! ## What transformers ask of the service -/

/-- The routine sends requests of a kind only, and registers transformers of a kind
only. -/
inductive Routine.AsksOnly (P : Request σ → Prop) (G : Transformer σ → Prop) :
    Routine σ → Prop where
  | finish (outcome : Outcome) : (Routine.finish outcome).AsksOnly P G
  | load {name : String} {resume : Except PipelineError Bytes → Routine σ}
      (h : ∀ result, (resume result).AsksOnly P G) : (Routine.load name resume).AsksOnly P G
  | ask {request : Request σ} {resume : Reply → Routine σ} (hrequest : P request)
      (hregister : ∀ t, request = .register t → G t)
      (h : ∀ reply, (resume reply).AsksOnly P G) : (Routine.ask request resume).AsksOnly P G
  | fetch {resume : σ → Routine σ} (h : ∀ memory, (resume memory).AsksOnly P G) :
      (Routine.fetch resume).AsksOnly P G
  | store {memory : σ} {rest : Routine σ} (h : rest.AsksOnly P G) :
      (Routine.store memory rest).AsksOnly P G

/-- The transformer sends requests of a kind only, and so do those that it registers. -/
inductive Transformer.Keeps (P : Request σ → Prop) : Transformer σ → Prop where
  | intro {t : Transformer σ}
      (h : ∀ context c, (t.transform context c).AsksOnly P (Transformer.Keeps P)) : t.Keeps P

theorem Transformer.Keeps.asksOnly {P : Request σ → Prop} {t : Transformer σ} (h : t.Keeps P)
    (context : Context) (c : Class) : (t.transform context c).AsksOnly P (Transformer.Keeps P) := by
  cases h with
  | intro h => exact h context c

/-- The transformer re-enters the service by loading classes and in no other way: its
other requests are answered without running transformers. -/
def Transformer.Tame (t : Transformer σ) : Prop :=
  t.Keeps fun request => request.isDirect = true

/-- The requests of a kind are answered, and no transformers but such as keep to the
kind come to be registered by them. -/
def Serves (answer : Request σ → SessionM σ Reply) (P : Request σ → Prop) : Prop :=
  ∀ request s, P request → (∀ t, request = .register t → t.Keeps P) →
    ∃ reply s', answer request s = some (reply, s') ∧
      s.service.Evolves (Transformer.Keeps P) s'.service

theorem serves_direct (inner : Request σ → SessionM σ Reply) :
    Serves (Session.answerWith inner) fun request => request.isDirect = true := by
  intro request s hdirect hregister
  obtain ⟨reply, s', hsome, hservice⟩ := Session.answerWith_of_isDirect inner hdirect s
  refine ⟨reply, s', hsome, _, hservice, ?_⟩
  intro t ht
  exact hregister t (Session.register_mem_changes ht)

namespace Pass

/-- The routines and transformers of the job send requests of a kind only. -/
def Job.Keeps (P : Request σ → Prop) : Job σ → Prop
  | .load _ _ => True
  | .routine r _ => r.AsksOnly P (Transformer.Keeps P)
  | .transform _ _ ts _ _ => ∀ t ∈ ts, t.Keeps P

theorem Runs.evolves_of_serves {answer : Request σ → SessionM σ Reply} {P : Request σ → Prop}
    (h : Runs answer job p q) (hserves : Serves answer P)
    (hholds : p.session.service.HoldsOnly (Transformer.Keeps P)) (hkeeps : job.Keeps P) :
    p.session.service.Evolves (Transformer.Keeps P) q.session.service := by
  induction h with
  | missing _ | exempt _ _ | tooDeep _ _ _ | finish | done | unreadable _ => exact .refl _
  | @pass _ p _ _ _ _ _ _ _ _ ih =>
      have hdelegated := p.session.service.evolves_delegated (P := Transformer.Keeps P)
      exact hdelegated.trans (ih (hholds.evolves hdelegated) fun t ht =>
        hholds t (Service.holds_of_mem_delegated ht))
  | load _ _ ihload ihrest =>
      cases hkeeps with
      | load hresume =>
          have hfirst := ihload hholds trivial
          exact hfirst.trans (ihrest (hholds.evolves hfirst) (hresume _))
  | ask hanswer _ ih =>
      cases hkeeps with
      | ask hrequest hregister hresume =>
          obtain ⟨reply, s, hsome, hfirst⟩ := hserves _ _ hrequest hregister
          rw [hanswer] at hsome
          cases hsome
          exact hfirst.trans (ih (hholds.evolves hfirst) (hresume _))
  | fetch _ ih =>
      cases hkeeps with
      | fetch hresume => exact ih hholds (hresume _)
  | store _ ih =>
      cases hkeeps with
      | store hrest => exact ih hholds hrest
  | @stop _ context t _ _ c _ _ q _ _ _ ih =>
      have hcall := ih hholds ((hkeeps t List.mem_cons_self).asksOnly context c)
      exact hcall.trans (evolves_settled (q.called t) t)
  | @next _ context t _ _ _ c _ _ _ q _ _ _ _ _ ihcall ihrest =>
      have hcall := ihcall hholds ((hkeeps t List.mem_cons_self).asksOnly context c)
      have hsettled := hcall.trans (evolves_settled (q.called t) t)
      exact hsettled.trans (ihrest (hholds.evolves hsettled) fun u hu =>
        hkeeps u (List.mem_cons_of_mem t hu))

end Pass

/-! ## Loads end -/

namespace Pass

section Returns

variable {answer : Request σ → SessionM σ Reply} {P : Request σ → Prop}

/-- There is a run of every load in a pass that is `k` deep where `d` is the capacity. -/
def LoadsReturn (answer : Request σ → SessionM σ Reply) (P : Request σ → Prop) (k d : Nat) :
    Prop :=
  ∀ name (p : Pass σ), p.guard.depth = k → p.guard.maxDepth = d →
    p.session.service.HoldsOnly (Transformer.Keeps P) →
      ∃ result q, Runs answer (.load name result) p q ∧
        p.session.service.Evolves (Transformer.Keeps P) q.session.service

variable {k d : Nat}

theorem LoadsReturn.routine (hloads : LoadsReturn answer P k d) (hserves : Serves answer P)
    {r : Routine σ} (hr : r.AsksOnly P (Transformer.Keeps P)) {p : Pass σ} (hk : p.guard.depth = k)
    (hd : p.guard.maxDepth = d) (hholds : p.session.service.HoldsOnly (Transformer.Keeps P)) :
    ∃ outcome q, Runs answer (.routine r outcome) p q ∧
      p.session.service.Evolves (Transformer.Keeps P) q.session.service := by
  induction hr generalizing p with
  | finish outcome => exact ⟨outcome, p, .finish, .refl _⟩
  | @load name resume _ ih =>
      obtain ⟨result, q, hload, hevolves⟩ := hloads name (p.asking name) hk hd hholds
      have hk' : q.guard.depth = k := hload.depth_eq.trans hk
      have hd' : q.guard.maxDepth = d := hload.maxDepth_eq.trans hd
      obtain ⟨outcome, r, hrest, hmore⟩ := ih result hk' hd' (hholds.evolves hevolves)
      exact ⟨outcome, r, .load hload hrest, hevolves.trans hmore⟩
  | ask hrequest hregister _ ih =>
      obtain ⟨reply, s, hanswer, hevolves⟩ := hserves _ p.session hrequest hregister
      obtain ⟨outcome, r, hrest, hmore⟩ :=
        ih reply (p := p.withSession s) hk hd (hholds.evolves hevolves)
      exact ⟨outcome, r, .ask hanswer hrest, hevolves.trans hmore⟩
  | fetch _ ih =>
      obtain ⟨outcome, r, hrest, hevolves⟩ := ih p.session.memory hk hd hholds
      exact ⟨outcome, r, .fetch hrest, hevolves⟩
  | @store memory _ _ ih =>
      obtain ⟨outcome, r, hrest, hevolves⟩ := ih (p := p.remember memory) hk hd hholds
      exact ⟨outcome, r, .store hrest, hevolves⟩

theorem LoadsReturn.transform (hloads : LoadsReturn answer P k d) (hserves : Serves answer P)
    (options : WriterOptions) (context : Context) {ts : List (Transformer σ)}
    (hts : ∀ t ∈ ts, t.Keeps P) (bytes : Bytes) {p : Pass σ} (hk : p.guard.depth = k)
    (hd : p.guard.maxDepth = d) (hholds : p.session.service.HoldsOnly (Transformer.Keeps P)) :
    ∃ result q, Runs answer (.transform options context ts bytes result) p q ∧
      p.session.service.Evolves (Transformer.Keeps P) q.session.service := by
  induction ts generalizing bytes p with
  | nil => exact ⟨_, p, .done, .refl _⟩
  | cons t ts ih =>
      cases hbytes : Class.decodeValid bytes with
      | error cause => exact ⟨_, p.ready, .unreadable hbytes, .refl _⟩
      | ok c =>
          have hasks := (hts t List.mem_cons_self).asksOnly context c
          obtain ⟨outcome, q, hcall, hevolves⟩ :=
            hloads.routine hserves hasks (p := p.ready.calling t c) hk hd hholds
          have hsettled := hevolves.trans (evolves_settled (q.called t) t)
          by_cases hfinal : ∃ output, t.conclude options context.name outcome = .ok (some output)
          · obtain ⟨output, hkeep⟩ := hfinal
            obtain ⟨result, r, hrest, hmore⟩ :=
              ih (fun u hu => hts u (List.mem_cons_of_mem t hu)) output
                (hcall.depth_after_call.trans hk) (hcall.maxDepth_after_call.trans hd)
                (hholds.evolves hsettled)
            exact ⟨result, r, .next hbytes hcall hkeep hrest, hsettled.trans hmore⟩
          · exact ⟨_, _, .stop hbytes hcall fun output h => hfinal ⟨output, h⟩, hsettled⟩

/-- Every load ends if the transformers re-enter the service by loading only: each pass
inside a pass has less of the capacity left, and the one that has none runs nothing. -/
theorem loadsReturn (hserves : Serves answer P) (k d : Nat) : LoadsReturn answer P k d := by
  induction hleft : d - k using Nat.strongRecOn generalizing k with
  | ind left ih =>
      intro name p hk hd hholds
      rcases load_cases p name with
        ⟨error, memory, hfind⟩ | ⟨f, memory, hfind, hexempt | ⟨hopen, hover | hroom⟩⟩
      · exact ⟨_, _, .missing hfind, .refl _⟩
      · exact ⟨_, _, .exempt hfind hexempt, .refl _⟩
      · exact ⟨_, _, .tooDeep hfind hopen hover, .refl _⟩
      · have hless : k + 1 ≤ d := by
          simpa [Guard.isOver, Guard.push, hk, hd] using hroom
        have hinner : LoadsReturn answer P (k + 1) d :=
          ih (d - (k + 1)) (by omega) (k + 1) rfl
        have hdelegated := p.session.service.evolves_delegated (P := Transformer.Keeps P)
        obtain ⟨result, q, hrun, hevolves⟩ :=
          hinner.transform hserves p.session.service.options f.context
            (fun t ht => hholds t (Service.holds_of_mem_delegated ht)) f.bytes
            (p := (p.remember memory).enter.delegating)
            (by simpa [Guard.push] using hk) (by simpa [Guard.push] using hd)
            (hholds.evolves hdelegated)
        exact ⟨_, _, .pass hfind hopen hroom hrun, hdelegated.trans hevolves⟩

end Returns

/-! ## Bounds -/

end Pass

namespace Event

/-- How deep the pass was in which it happened. -/
def depth? : Event σ → Option Nat
  | .entered depth | .left depth | .calling _ depth _ | .called _ depth
  | .loading _ depth _ => some depth
  | .demoted _ => none

def isCalling : Event σ → Bool
  | .calling _ _ _ => true
  | _ => false

def isCalled : Event σ → Bool
  | .called _ _ => true
  | _ => false

end Event

namespace Pass

/-- What happened stayed within the capacity `d`. The events are the latest first, so a
suffix of them is what had happened at some point. -/
structure Bounded (d : Nat) (events : List (Event σ)) : Prop where
  /-- At most `d + 1` passes were ever under way. -/
  depth_le : ∀ e ∈ events, ∀ k, e.depth? = some k → k ≤ d + 1
  /-- No pass deeper than `d` called a transformer. -/
  calling_le : ∀ t k c, .calling t k c ∈ events → k ≤ d
  /-- At most `d` calls were ever in progress. -/
  progress_le : ∀ past, past <:+ events →
    past.countP Event.isCalling ≤ past.countP Event.isCalled + d

theorem bounded_nil (d : Nat) : Bounded d ([] : List (Event σ)) where
  depth_le := by simp
  calling_le := by simp
  progress_le := by simp

theorem Bounded.cons {d : Nat} {events : List (Event σ)} (h : Bounded d events) {e : Event σ}
    (hdepth : ∀ k, e.depth? = some k → k ≤ d + 1) (hcalling : ∀ t k c, e = .calling t k c → k ≤ d)
    (hprogress : (e :: events).countP Event.isCalling ≤ (e :: events).countP Event.isCalled + d) :
    Bounded d (e :: events) where
  depth_le e' he' := by
    rcases List.mem_cons.mp he' with rfl | he'
    · exact hdepth
    · exact h.depth_le e' he'
  calling_le t k c hmem := by
    rcases List.mem_cons.mp hmem with hmem | hmem
    · exact hcalling t k c hmem.symm
    · exact h.calling_le t k c hmem
  progress_le past hpast := by
    rcases List.suffix_cons_iff.mp hpast with rfl | hpast
    · exact hprogress
    · exact h.progress_le past hpast

/-- The pass is within its capacity, and as many calls are in progress as passes are
under way, less `slack`. -/
structure Fits (slack : Nat) (p : Pass σ) : Prop where
  depth_le : p.guard.depth ≤ p.guard.maxDepth
  bounded : Bounded p.guard.maxDepth p.events
  progress : p.events.countP Event.isCalling + slack =
    p.events.countP Event.isCalled + p.guard.depth

/-- Between two transformers of a pass one call less is in progress. -/
def Job.slack : Job σ → Nat
  | .load _ _ | .routine _ _ => 0
  | .transform _ _ _ _ _ => 1

theorem Bounded.note {d : Nat} {events : List (Event σ)} (h : Bounded d events) {e : Event σ}
    (hdepth : ∀ k, e.depth? = some k → k ≤ d + 1) (hcalling : e.isCalling = false)
    (hcalled : e.isCalled = false) : Bounded d (e :: events) := by
  refine h.cons hdepth ?_ ?_
  · intro t k c he
    rw [he] at hcalling
    cases hcalling
  · have hprogress := h.progress_le events List.suffix_rfl
    simpa [hcalling, hcalled] using hprogress

section Fits

variable {p : Pass σ}

theorem Fits.asking (h : p.Fits 0) (name : String) : (p.asking name).Fits 0 where
  depth_le := h.depth_le
  bounded := by
    refine h.bounded.note ?_ rfl rfl
    intro k hk
    cases hk
    exact Nat.le_succ_of_le h.depth_le
  progress := by simpa [Event.isCalling, Event.isCalled] using h.progress

theorem Fits.enter (h : p.Fits 0) (hroom : p.guard.push.isOver = false) : p.enter.Fits 1 where
  depth_le := by simpa [Guard.isOver, Guard.push] using hroom
  bounded := by
    refine h.bounded.note ?_ rfl rfl
    intro k hk
    cases hk
    exact Nat.succ_le_succ h.depth_le
  progress := by
    have hprogress := h.progress
    simp [Event.isCalling, Event.isCalled, Guard.push]
    omega

theorem Fits.exit (h : p.Fits 1) (hpos : 1 ≤ p.guard.depth) : p.exit.Fits 0 where
  depth_le := Nat.le_trans (Nat.sub_le _ _) h.depth_le
  bounded := by
    refine h.bounded.note ?_ rfl rfl
    intro k hk
    cases hk
    exact Nat.le_trans (Nat.sub_le _ _) (Nat.le_succ_of_le h.depth_le)
  progress := by
    have hprogress := h.progress
    simp [Event.isCalling, Event.isCalled, Guard.leave]
    omega

theorem Fits.enter_exit (h : p.Fits 0) : p.enter.exit.Fits 0 where
  depth_le := h.depth_le
  bounded := by
    refine (h.bounded.note ?_ rfl rfl).note ?_ rfl rfl
    · intro k hk
      cases hk
      exact Nat.succ_le_succ h.depth_le
    · intro k hk
      cases hk
      exact Nat.le_succ_of_le h.depth_le
  progress := by simpa [Event.isCalling, Event.isCalled, Guard.leave, Guard.push] using h.progress

theorem Fits.calling (h : p.Fits 1) (t : Transformer σ) (c : Class) :
    (p.ready.calling t c).Fits 0 := by
  have hdepth := h.depth_le
  have hprogress := h.progress
  refine ⟨hdepth, h.bounded.cons ?_ ?_ ?_, ?_⟩
  · intro k hk
    cases hk
    exact Nat.le_succ_of_le hdepth
  · intro u k d he
    cases he
    exact hdepth
  · simp [List.countP_cons, Event.isCalling, Event.isCalled]
    omega
  · simp [List.countP_cons, Event.isCalling, Event.isCalled, Guard.clear]
    omega

theorem Fits.called (h : p.Fits 0) (t : Transformer σ) : (p.called t).Fits 1 := by
  have hdepth := h.depth_le
  have hprogress := h.progress
  refine ⟨hdepth, h.bounded.cons ?_ (by simp) ?_, ?_⟩
  · intro k hk
    cases hk
    exact Nat.le_succ_of_le hdepth
  · simp [List.countP_cons, Event.isCalling, Event.isCalled]
    omega
  · simp [List.countP_cons, Event.isCalling, Event.isCalled]
    omega

theorem Fits.settled (h : p.Fits 1) (t : Transformer σ) : (p.settled t).Fits 1 := by
  unfold Pass.settled
  split
  · refine ⟨h.depth_le, h.bounded.note (by simp [Event.depth?]) rfl rfl, ?_⟩
    simpa [Event.isCalling, Event.isCalled, Guard.clear] using h.progress
  · exact h

/-- A job that starts within the capacity stays within it. -/
theorem Runs.fits {answer : Request σ → SessionM σ Reply} {job : Job σ} {p q : Pass σ}
    (h : Runs answer job p q) (hp : p.Fits job.slack) : q.Fits job.slack := by
  induction h with
  | missing _ | exempt _ _ => exact ⟨hp.depth_le, hp.bounded, hp.progress⟩
  | @tooDeep name p f memory _ _ _ =>
      have hfound : (p.remember memory).Fits 0 := ⟨hp.depth_le, hp.bounded, hp.progress⟩
      exact hfound.enter_exit
  | @pass name p q f memory result _ _ hroom hrun ih =>
      have hfound : (p.remember memory).Fits 0 := ⟨hp.depth_le, hp.bounded, hp.progress⟩
      have hentered := hfound.enter hroom
      have hran := ih ⟨hentered.depth_le, hentered.bounded, hentered.progress⟩
      have hdepth : q.guard.depth = p.guard.depth + 1 := hrun.depth_eq
      exact hran.exit (by omega)
  | finish | done => exact hp
  | load _ _ ihload ihrest => exact ihrest (ihload (hp.asking _))
  | ask _ _ ih => exact ih ⟨hp.depth_le, hp.bounded, hp.progress⟩
  | fetch _ ih => exact ih hp
  | store _ ih => exact ih ⟨hp.depth_le, hp.bounded, hp.progress⟩
  | unreadable _ => exact ⟨hp.depth_le, hp.bounded, hp.progress⟩
  | stop _ _ _ ih => exact ((ih (hp.calling _ _)).called _).settled _
  | next _ _ _ _ ihcall ihrest =>
      exact ihrest (((ihcall (hp.calling _ _)).called _).settled _)

end Fits

/-! ## Loads at large -/

theorem fits_start (s : Session σ) : (start s).Fits 0 :=
  ⟨Nat.zero_le _, bounded_nil _, rfl⟩

/-- Asking for a class leaves the depth as it is, whatever comes of it. -/
theorem depth_load {answer : Request σ → SessionM σ Reply} {room : Nat} {name : String}
    {p q : Pass σ} {result : Except PipelineError Bytes}
    (h : (host (load answer room) answer).load name p = some (result, q)) :
    q.guard.depth = p.guard.depth := by
  have hload : load answer room name (p.asking name) = some (result, q) := h
  exact (runs_of_load room _ _ _ _ hload).depth_eq

/-- There is a load in which everything happens as in the run, for any room that is
enough. -/
theorem exists_load {answer : Request σ → SessionM σ Reply} {P : Request σ → Prop}
    (hserves : Serves answer P) {s : Session σ} (hreachable : s.service.Reachable)
    (hregistry : ∀ t ∈ s.service.registry, t.Keeps P) (name : String) :
    ∃ result p, Runs answer (.load name result) (start s) p ∧
      (∀ room, s.service.config.reentranceDepth < room →
        load answer room name (start s) = some (result, p)) ∧
      Session.classBytes answer name true s = some (result, p.session) := by
  obtain ⟨result, p, hrun, -⟩ :=
    loadsReturn hserves 0 _ name (start s) rfl rfl (hreachable.holdsOnly hregistry)
  have hload : ∀ room, s.service.config.reentranceDepth < room →
      load answer room name (start s) = some (result, p) := by
    intro room hroom
    refine load_of_runs hrun ⟨by omega, ?_⟩
    simpa [start, Guard.new] using hroom
  refine ⟨result, p, hrun, hload, ?_⟩
  show (load answer _ name (start s)).map _ = _
  rw [hload _ (Nat.lt_succ_self _)]
  rfl

/-- Loading a class returns, however deep transformers nest their loads and whatever
classes they load, and on the way the guard, the calls in progress and the depths of
the passes that call transformers stay within the capacity. -/
theorem load_returns_within_capacity {s : Session σ} (hreachable : s.service.Reachable)
    (htame : ∀ t ∈ s.service.registry, t.Tame) (inner : Request σ → SessionM σ Reply)
    (name : String) :
    let d := s.service.config.reentranceDepth
    let answer := Session.answerWith inner
    (∃ result p,
      Session.classBytes answer name true s = some (result, p.session) ∧
      (∀ room, d < room → load answer room name (start s) = some (result, p)) ∧
      p.guard.depth = 0 ∧ Bounded d p.events) ∧
    ∀ room other result (p q : Pass σ),
      (host (load answer room) answer).load other p = some (result, q) →
        q.guard.depth = p.guard.depth := by
  dsimp only
  obtain ⟨result, p, hrun, hload, hbytes⟩ := exists_load (serves_direct inner) hreachable htame name
  have hdepth : p.guard.depth = 0 := hrun.depth_eq
  have hmaxDepth : p.guard.maxDepth = s.service.config.reentranceDepth := hrun.maxDepth_eq
  have hbounded := (hrun.fits (fits_start s)).bounded
  rw [hmaxDepth] at hbounded
  exact ⟨⟨result, p, hbytes, hload, hdepth, hbounded⟩, fun _ _ _ _ _ h => depth_load h⟩

/-- A transformer that loads the class which it is about to edit. -/
def revisiting : Transformer Unit where
  name := "revisiting"
  isDelegationExcluded := false
  remapper := none
  transform context c := .load context.name.dotted fun _ => .finish (.keep c)

theorem keeps_revisiting (P : Request Unit → Prop) : revisiting.Keeps P :=
  .intro fun _ _ => .load fun _ => .finish _

/-- A service with a transformer that revisits each class. -/
def revisited : Session Unit where
  service := (Service.fresh .default {}).after
    [.addSource (.ofAnswers fun _ => .ok (some (Class.announcedBy 1))), .register revisiting]
  memory := ()
  held := none

theorem revisited_returns_within_capacity :
    revisited.service.Reachable ∧ (∀ t ∈ revisited.service.registry, t.Tame) ∧
      ∃ result, ∃ p : Pass Unit,
        Session.classBytes (Session.answerWith fun _ => failure) "A" true revisited =
          some (result, p.session) ∧
        p.guard.depth = 0 ∧ Bounded 1 p.events := by
  have hreachable : revisited.service.Reachable := ⟨_, _, _, rfl⟩
  have htame : ∀ t ∈ revisited.service.registry, t.Tame := by
    intro t ht
    rw [List.mem_singleton.mp ht]
    exact keeps_revisiting _
  obtain ⟨⟨result, p, hbytes, -, hdepth, hbounded⟩, -⟩ :=
    load_returns_within_capacity hreachable htame (fun _ => failure) "A"
  exact ⟨hreachable, htame, result, p, hbytes, hdepth, hbounded⟩

end Pass

end ClassLoom
