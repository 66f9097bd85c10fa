import ClassLoom.Proofs.PassDepth

/-!
# Which transformers are demoted

All passes of a load share one flag. It goes up when a pass is one too deep, nested
passes lower it before and after each call, and whoever made a call looks at it
afterwards. It is not obvious that the flag tells on the right transformer: it could be
lowered in between, or be up because of somebody else.

Neither happens when transformers re-enter the service by loading classes only. A pass
that is less than `d` deep, `d` being the capacity, finds the flag down when it starts a
call, and whatever loads happen in the call leave it down, because every nested pass
settles its own calls. In a pass that is exactly `d` deep no load runs a transformer, so
nothing lowers the flag during a call, and it goes up just when a class is asked for
that there is and that is not exempt.

A log is what has happened in a load, the earliest first. Which calls should be followed
by a demotion can be read off it (`reentrant`), and the theorem compares this with the
demotions that are there. The log of a part of a load is good in front of any log that
does not begin with a demotion (`Orderly`), which is what lets parts be put together.
-/

namespace ClassLoom

variable {σ : Type}

namespace Exclusions

/-- The transform prefixes that registering texts adds: the new ones among their normalized
forms, each once, in the order in which they first occur. -/
def newPrefixes (e : Exclusions) (texts : List String) : List String :=
  ((texts.map normalize).filter fun start => start ∉ e.transform).eraseDups

theorem newPrefixes_of_mem {e : Exclusions} {text : String} (h : normalize text ∈ e.transform)
    (texts : List String) : e.newPrefixes (text :: texts) = e.newPrefixes texts := by
  simp [newPrefixes, h]

theorem newPrefixes_of_notMem {e : Exclusions} {text : String}
    (h : normalize text ∉ e.transform) (texts : List String) :
    e.newPrefixes (text :: texts) =
      normalize text :: (e.exclude .transform text).2.newPrefixes texts := by
  have hfilter : ((texts.map normalize).filter fun start => start ∉ e.transform).filter
      (fun start => !start == normalize text) =
        (texts.map normalize).filter fun start =>
          start ∉ (e.exclude .transform text).2.transform := by
    rw [List.filter_filter]
    refine List.filter_congr fun start _ => ?_
    rw [Bool.eq_iff_iff, exclude_transform_of_notMem h]
    simp [and_comm]
  unfold newPrefixes
  rw [List.map_cons, List.filter_cons_of_pos (by simpa using h), List.eraseDups_cons, hfilter]

/-- Registering transform prefixes adds the new ones, and counts them. -/
theorem excludeAll_transform (e : Exclusions) (texts : List String) :
    e.excludeAll .transform texts =
      { e with
        transform := e.transform ++ e.newPrefixes texts
        generation := e.generation + (e.newPrefixes texts).length } := by
  induction texts generalizing e with
  | nil => simp [excludeAll, newPrefixes]
  | cons text texts ih =>
      show (e.exclude .transform text).2.excludeAll .transform texts = _
      by_cases hold : normalize text ∈ e.transform
      · rw [exclude_transform_of_mem hold, newPrefixes_of_mem hold, ih]
      · rw [newPrefixes_of_notMem hold, ih, exclude_transform_of_notMem hold]
        simp
        omega

end Exclusions

/-- Some source has the class, and transformers may touch it. -/
def Session.opens (s : Session σ) (name : String) : Bool :=
  match (s.service.find name s.memory).1 with
  | .ok f => !s.service.isExempt f
  | .error _ => false

/-- The transformer touches the service by loading classes only. -/
def Transformer.LoadsOnly (t : Transformer σ) : Prop :=
  t.Keeps fun _ => False

namespace Event

/-- A call by a pass that is `k` deep ends. -/
def endsAt (k : Nat) : Event σ → Bool
  | .called _ depth => depth == k
  | _ => false

/-- A transformer of a pass that is `k` deep asks for a class which there is and which
transformers may touch. -/
def opensAt (k : Nat) : Event σ → Bool
  | .loading name depth s => depth == k && s.opens name
  | _ => false

/-- The transformer that is demoted. -/
def demotion? : Event σ → Option String
  | .demoted t => some t
  | _ => none

/-- The event is neither a call nor a demotion. -/
def isPlain : Event σ → Bool
  | .calling _ _ _ | .demoted _ => false
  | _ => true

end Event

namespace Pass

/-! ## Calls and demotions in a log -/

/-- What has happened, the earliest first. -/
def log (p : Pass σ) : List (Event σ) := p.events.reverse

/-- What happens during a call by a pass that is `k` deep, of all that happens after the
call has started. -/
def during (k : Nat) (rest : List (Event σ)) : List (Event σ) :=
  rest.takeWhile fun e => !e.endsAt k

/-- What happens from the end of the call on. -/
def onward (k : Nat) (rest : List (Event σ)) : List (Event σ) :=
  rest.dropWhile fun e => !e.endsAt k

/-- The transformers which, called by a pass that is `d` deep, asked for a class that
there is and that transformers may touch; one for each such call. -/
def reentrant (d : Nat) : List (Event σ) → List String
  | [] => []
  | .calling t k _ :: rest =>
    if k = d ∧ (during k rest).any (Event.opensAt k) then t :: reentrant d rest
    else reentrant d rest
  | _ :: rest => reentrant d rest

/-- The call ends, and right after that its transformer is demoted if and only if the
call was made by a pass that is `d` deep and asked for such a class. -/
def Judged (d : Nat) (t : String) (k : Nat) (rest : List (Event σ)) : Prop :=
  ∃ later, onward k rest = .called t k :: later ∧
    (later.head? = some (.demoted t) ↔ k = d ∧ (during k rest).any (Event.opensAt k) = true)

/-- All calls of a log are judged, and it does not begin with a demotion. -/
structure Orderly (d : Nat) (log : List (Event σ)) : Prop where
  starts : ∀ t, log.head? ≠ some (.demoted t)
  judged : ∀ t k c rest, .calling t k c :: rest <:+ log → Judged d t k rest

section Log

variable {d k : Nat} {t : String} {c : Class} {e : Event σ} {log inner tail : List (Event σ)}

theorem orderly_nil (d : Nat) : Orderly d ([] : List (Event σ)) where
  starts := by simp
  judged := by simp

theorem Orderly.cons (h : ∀ t k c rest, .calling t k c :: rest <:+ log → Judged d t k rest)
    (he : e.isPlain = true) : Orderly d (e :: log) where
  starts t ht := by
    cases ht
    cases he
  judged t k c rest hsuffix := by
    rcases List.suffix_cons_iff.mp hsuffix with hsame | hsuffix
    · cases hsame
      cases he
    · exact h t k c rest hsuffix

theorem reentrant_cons (he : e.isPlain = true) (log : List (Event σ)) :
    reentrant d (e :: log) = reentrant d log := by
  cases e with
  | calling _ _ _ | demoted _ => cases he
  | entered _ | left _ | called _ _ | loading _ _ _ => rfl

theorem demotion?_of_isPlain (he : e.isPlain = true) : e.demotion? = none := by
  cases e with
  | calling _ _ _ | demoted _ => cases he
  | entered _ | left _ | called _ _ | loading _ _ _ => rfl

/-- In front of an orderly log the part is orderly, and its demotions are those of its
reentrant transformers. -/
structure Accounts (d : Nat) (part : List (Event σ)) : Prop where
  orderly : ∀ tail, Orderly d tail → Orderly d (part ++ tail)
  reentrant_eq : ∀ tail, reentrant d (part ++ tail) =
    part.filterMap Event.demotion? ++ reentrant d tail

theorem accounts_nil (d : Nat) : Accounts d ([] : List (Event σ)) where
  orderly _ h := h
  reentrant_eq _ := rfl

theorem Accounts.append {first second : List (Event σ)} (h : Accounts d first)
    (h' : Accounts d second) : Accounts d (first ++ second) where
  orderly tail htail := by
    rw [List.append_assoc]
    exact h.orderly _ (h'.orderly tail htail)
  reentrant_eq tail := by
    rw [List.append_assoc, h.reentrant_eq, h'.reentrant_eq, List.filterMap_append,
      List.append_assoc]

theorem accounts_of_isPlain (he : e.isPlain = true) : Accounts d [e] where
  orderly tail htail := .cons htail.judged he
  reentrant_eq tail := by
    have hnone := demotion?_of_isPlain he
    simp [hnone, reentrant_cons he]

theorem during_append (h : ∀ e ∈ inner, e.endsAt k = false) :
    during k (inner ++ .called t k :: tail) = inner := by
  unfold during
  rw [List.takeWhile_append_of_pos (by simpa using h)]
  simp [Event.endsAt]

theorem onward_append (h : ∀ e ∈ inner, e.endsAt k = false) :
    onward k (inner ++ .called t k :: tail) = .called t k :: tail := by
  unfold onward
  rw [List.dropWhile_append_of_pos (by simpa using h)]
  simp [Event.endsAt]

/-- A call accounts for its transformer if what happens during it accounts for the
others, and if the transformer is demoted as it should be. -/
theorem Accounts.call (h : Accounts d inner) (hends : ∀ e ∈ inner, e.endsAt k = false)
    (hquiet : k = d → inner.filterMap Event.demotion? = []) {verdict : List (Event σ)}
    (hverdict : verdict =
      if k = d ∧ inner.any (Event.opensAt k) then [.demoted t] else []) :
    Accounts d (.calling t k c :: (inner ++ .called t k :: verdict)) where
  orderly tail htail := by
    have hlater : Orderly d (inner ++ .called t k :: (verdict ++ tail)) := by
      refine h.orderly _ (.cons ?_ rfl)
      intro u j b rest hsuffix
      rw [hverdict] at hsuffix
      split at hsuffix
      · rcases List.suffix_cons_iff.mp hsuffix with hsame | hsuffix
        · cases hsame
        · exact htail.judged u j b rest hsuffix
      · exact htail.judged u j b rest hsuffix
    rw [List.cons_append, List.append_assoc, List.cons_append]
    refine ⟨by simp, ?_⟩
    intro u j b rest hsuffix
    rcases List.suffix_cons_iff.mp hsuffix with hsame | hsuffix
    · cases hsame
      refine ⟨verdict ++ tail, onward_append hends, ?_⟩
      rw [during_append hends, hverdict]
      split
      · next hcaught => exact iff_of_true rfl hcaught
      · next hfree => simpa [htail.starts] using hfree
    · exact hlater.judged u j b rest hsuffix
  reentrant_eq tail := by
    have hrest : reentrant d (inner ++ .called t k :: (verdict ++ tail)) =
        inner.filterMap Event.demotion? ++ reentrant d tail := by
      rw [h.reentrant_eq, reentrant_cons rfl, hverdict]
      split
      · rfl
      · rfl
    rw [List.cons_append, List.append_assoc, List.cons_append]
    simp only [reentrant, during_append hends, hrest]
    rw [hverdict]
    split
    · next hcaught => simp [List.filterMap_cons, Event.demotion?, hquiet hcaught.1]
    · simp [List.filterMap_cons, Event.demotion?]

end Log

/-! ## What demotions do to a session -/

/-- The transformers have been demoted and the cached list may be another one; nothing
else has changed but the memory. -/
structure Demotes (names : List String) (s s' : Session σ) : Prop where
  held : s'.held = s.held
  service : ∃ delegation, s'.service =
    { s.service with
      exclusions := s.service.exclusions.excludeAll .transform names
      delegation
      demoted := s.service.demoted ++ names }

theorem demotes_nil {s s' : Session σ} (hheld : s'.held = s.held)
    (hservice : s'.service = s.service) : Demotes [] s s' :=
  ⟨hheld, s.service.delegation, by simp [hservice, Exclusions.excludeAll]⟩

theorem Demotes.trans {names names' : List String} {s s' s'' : Session σ}
    (h : Demotes names s s') (h' : Demotes names' s' s'') : Demotes (names ++ names') s s'' := by
  obtain ⟨_, hservice⟩ := h.service
  obtain ⟨delegation, hservice'⟩ := h'.service
  refine ⟨h'.held.trans h.held, delegation, ?_⟩
  rw [hservice', hservice]
  simp [Exclusions.excludeAll]

theorem demotes_delegated (s : Session σ) :
    Demotes [] s { s with service := s.service.delegated.2 } :=
  ⟨rfl, s.service.delegated.2.delegation, by simp [Service.delegated, Exclusions.excludeAll]⟩

theorem demotes_demote (s : Session σ) (t : String) :
    Demotes [t] s { s with service := s.service.demote t } :=
  ⟨rfl, (s.service.demote t).delegation, rfl⟩

/-! ## What a part of a load tells -/

/-- What is known of a part of a load whose events are `part`. -/
structure Tells (d : Nat) (p q : Pass σ) (part : List (Event σ)) : Prop where
  events : q.events = part.reverse ++ p.events
  accounts : Accounts d part
  demotes : Demotes (part.filterMap Event.demotion?) p.session q.session
  holdsOnly : p.session.service.HoldsOnly Transformer.LoadsOnly →
    q.session.service.HoldsOnly Transformer.LoadsOnly

section Tells

variable {d k m : Nat} {p q r : Pass σ} {part part' : List (Event σ)}

theorem tells_nil (hevents : q.events = p.events) (hheld : q.session.held = p.session.held)
    (hservice : q.session.service = p.session.service) : Tells d p q [] where
  events := hevents
  accounts := accounts_nil d
  demotes := demotes_nil hheld hservice
  holdsOnly h := by rwa [hservice]

theorem tells_of_isPlain {e : Event σ} (he : e.isPlain = true) (hevents : q.events = e :: p.events)
    (hsession : q.session = p.session) : Tells d p q [e] where
  events := hevents
  accounts := accounts_of_isPlain he
  demotes := by
    have hnone := demotion?_of_isPlain he
    simpa [hnone] using demotes_nil (congrArg _ hsession) (congrArg _ hsession)
  holdsOnly h := by rwa [hsession]

theorem Tells.trans (h : Tells d p q part) (h' : Tells d q r part') :
    Tells d p r (part ++ part') where
  events := by simp [h'.events, h.events]
  accounts := h.accounts.append h'.accounts
  demotes := by
    rw [List.filterMap_append]
    exact h.demotes.trans h'.demotes
  holdsOnly hholds := h'.holdsOnly (h.holdsOnly hholds)

theorem tells_enter (d : Nat) (p : Pass σ) : Tells d p p.enter [.entered p.guard.push.depth] :=
  tells_of_isPlain rfl rfl rfl

theorem tells_exit (d : Nat) (p : Pass σ) : Tells d p p.exit [.left p.guard.leave.depth] :=
  tells_of_isPlain rfl rfl rfl

theorem tells_delegating (d : Nat) (p : Pass σ) : Tells d p p.delegating [] where
  events := rfl
  accounts := accounts_nil d
  demotes := demotes_delegated p.session
  holdsOnly h := h.evolves (Service.evolves_delegated _)

/-- The calls that end are made by passes that are at least `k` deep, and the classes that
are asked for are asked for in passes that are at least `m` deep. -/
structure Deep (k m : Nat) (part : List (Event σ)) : Prop where
  ends : ∀ e ∈ part, ∀ depth, e.endsAt depth = true → k ≤ depth
  opens : ∀ e ∈ part, ∀ depth, e.opensAt depth = true → m ≤ depth

theorem deep_nil (k m : Nat) : Deep k m ([] : List (Event σ)) where
  ends := by simp
  opens := by simp

theorem Deep.append (h : Deep k m part) (h' : Deep k m part') : Deep k m (part ++ part') where
  ends e he := by
    rcases List.mem_append.mp he with he | he
    · exact h.ends e he
    · exact h'.ends e he
  opens e he := by
    rcases List.mem_append.mp he with he | he
    · exact h.opens e he
    · exact h'.opens e he

theorem Deep.mono {k' m' : Nat} (h : Deep k m part) (hk : k' ≤ k) (hm : m' ≤ m) :
    Deep k' m' part where
  ends e he depth hends := Nat.le_trans hk (h.ends e he depth hends)
  opens e he depth hopens := Nat.le_trans hm (h.opens e he depth hopens)

theorem deep_singleton {e : Event σ} (hends : ∀ depth, e.endsAt depth = true → k ≤ depth)
    (hopens : ∀ depth, e.opensAt depth = true → m ≤ depth) : Deep k m [e] where
  ends e' he' := by
    rw [List.mem_singleton.mp he']
    exact hends
  opens e' he' := by
    rw [List.mem_singleton.mp he']
    exact hopens

theorem deep_entered (k m depth : Nat) : Deep k m [(.entered depth : Event σ)] :=
  deep_singleton (by simp [Event.endsAt]) (by simp [Event.opensAt])

theorem deep_left (k m depth : Nat) : Deep k m [(.left depth : Event σ)] :=
  deep_singleton (by simp [Event.endsAt]) (by simp [Event.opensAt])

theorem Deep.call {t : String} {c : Class} {verdict : List (Event σ)} (h : Deep (k + 1) k part)
    (hverdict : Deep k k verdict) :
    Deep k k (.calling t k c :: (part ++ .called t k :: verdict)) := by
  have hcalling : Deep k k [(.calling t k c : Event σ)] :=
    deep_singleton (by simp [Event.endsAt]) (by simp [Event.opensAt])
  have hcalled : Deep k k [(.called t k : Event σ)] :=
    deep_singleton (by simp [Event.endsAt]) (by simp [Event.opensAt])
  exact hcalling.append ((h.mono (Nat.le_succ k) (Nat.le_refl k)).append (hcalled.append hverdict))

theorem Deep.any_opensAt (h : Deep k m part) {depth : Nat} (hless : depth < m) :
    part.any (Event.opensAt depth) = false := by
  rw [List.any_eq_false]
  intro e he hopens
  have hle := h.opens e he depth hopens
  omega

theorem Deep.endsAt_eq_false (h : Deep k m part) {depth : Nat} (hless : depth < k) :
    ∀ e ∈ part, e.endsAt depth = false := by
  intro e he
  by_contra hends
  have hle := h.ends e he depth (by simpa using hends)
  omega

end Tells

/-- What a job needs where passes may nest `d` deep: it does not start too deep, the flag
is down unless the pass is as deep as it may be, and transformers load only. -/
def Job.Ready (d : Nat) (p : Pass σ) : Job σ → Prop
  | .load _ _ => p.guard.depth ≤ d ∧ (p.guard.depth < d → p.guard.raised = false)
  | .routine r _ => p.guard.depth ≤ d ∧ (p.guard.depth < d → p.guard.raised = false) ∧
      r.AsksOnly (fun _ => False) Transformer.LoadsOnly
  | .transform _ _ ts _ _ => p.guard.depth ≤ d ∧ p.guard.raised = false ∧ ∀ t ∈ ts, t.LoadsOnly

/-- What a job does to the flag, and how deep its events are: in a pass that is as deep as
it may be the flag goes up when a class is asked for that there is and that is not exempt,
and nobody is demoted; otherwise the flag stays down. -/
def Job.Flags (d : Nat) (p q : Pass σ) (part : List (Event σ)) : Job σ → Prop
  | .load name _ => Deep (p.guard.depth + 1) (p.guard.depth + 1) part ∧
      (p.guard.depth = d → part.filterMap Event.demotion? = []) ∧
      q.guard.raised = (p.guard.raised || (p.guard.depth == d && p.session.opens name))
  | .routine _ _ => Deep (p.guard.depth + 1) p.guard.depth part ∧
      (p.guard.depth = d → part.filterMap Event.demotion? = []) ∧
      q.guard.raised =
        (p.guard.raised || (p.guard.depth == d && part.any (Event.opensAt p.guard.depth)))
  | .transform _ _ _ _ _ => Deep p.guard.depth p.guard.depth part ∧ q.guard.raised = false

section Rules

variable {d : Nat} {p q : Pass σ} {name : String} {f : Found} {memory : σ}

theorem opens_of_missing {error : PipelineError}
    (hfind : p.session.service.find name p.session.memory = (.error error, memory)) :
    p.session.opens name = false := by
  simp [Session.opens, hfind]

theorem opens_of_found
    (hfind : p.session.service.find name p.session.memory = (.ok f, memory)) :
    p.session.opens name = !p.session.service.isExempt f := by
  simp [Session.opens, hfind]

/-- The demotion that follows a call, if there is one. -/
def verdict (t : String) (caught : Prop) [Decidable caught] : List (Event σ) :=
  if caught then [.demoted t] else []

theorem deep_verdict (t : String) (caught : Prop) [Decidable caught] (k : Nat) :
    Deep k k (verdict t caught : List (Event σ)) := by
  unfold verdict
  split
  · exact deep_singleton (by simp [Event.endsAt]) (by simp [Event.opensAt])
  · exact deep_nil k k

theorem settled_spec (t : Transformer σ) {caught : Prop} [Decidable caught]
    (h : p.guard.raised = decide caught) :
    (p.settled t).events = (verdict t.name caught).reverse ++ p.events ∧
      Demotes ((verdict t.name caught : List (Event σ)).filterMap Event.demotion?) p.session
        (p.settled t).session ∧
      (p.settled t).guard.raised = false := by
  unfold settled verdict
  by_cases hcaught : caught
  · simp only [h, hcaught, decide_true, if_true]
    exact ⟨rfl, demotes_demote p.session t.name, rfl⟩
  · simp only [h, hcaught, decide_false, if_false]
    exact ⟨rfl, demotes_nil rfl rfl, h.trans (by simp [hcaught])⟩

/-- A call, together with what is settled after it. -/
theorem tells_call {t : Transformer σ} {c : Class} {inner : List (Event σ)}
    (hdepth : q.guard.depth = p.guard.depth) (h : Tells d (p.ready.calling t c) q inner)
    {r : Routine σ} {outcome : Outcome}
    (hflags : (Job.routine r outcome).Flags d (p.ready.calling t c) q inner) :
    ∃ part, Tells d p ((q.called t).settled t) part ∧
      Deep p.guard.depth p.guard.depth part ∧ ((q.called t).settled t).guard.raised = false := by
  obtain ⟨hdeep, hquiet, hraised⟩ := hflags
  simp only [calling_guard, ready_guard, Guard.clear, Bool.false_or] at hdeep hquiet hraised
  generalize hk : p.guard.depth = k at *
  let caught : Prop := k = d ∧ inner.any (Event.opensAt k) = true
  have hcaught : (q.called t).guard.raised = decide caught := by
    rw [called_guard, hraised, Bool.eq_iff_iff]
    simp [caught]
  obtain ⟨hevents, hdemotes, hlowered⟩ := settled_spec t hcaught
  have hends := hdeep.endsAt_eq_false (Nat.lt_succ_self k)
  refine ⟨.calling t.name k c :: (inner ++ .called t.name k :: verdict t.name caught),
    ⟨?_, h.accounts.call hends hquiet rfl, ?_, ?_⟩, hdeep.call (deep_verdict _ _ _), hlowered⟩
  · rw [hevents]
    simp [h.events, hdepth, Guard.clear, hk]
  · have hboth := h.demotes.trans hdemotes
    simpa [List.filterMap_cons, Event.demotion?] using hboth
  · intro hholds
    exact (h.holdsOnly hholds).evolves (evolves_settled (q.called t) t)

/-- A pass that is too deep. The flag goes up here and nowhere else. -/
theorem tells_tooDeep
    (hfind : p.session.service.find name p.session.memory = (.ok f, memory))
    (hopen : p.session.service.isExempt f = false) (hover : p.guard.push.isOver = true)
    (hdeepest : p.guard.depth = d) (result : Except PipelineError Bytes) :
    ∃ part, Tells d p (p.remember memory).enter.exit part ∧
      (Job.load name result).Flags d p (p.remember memory).enter.exit part := by
  have hfound : Tells d p (p.remember memory) [] := tells_nil rfl rfl rfl
  have htells := (hfound.trans (tells_enter d _)).trans (tells_exit d _)
  have hraised : p.guard.push.leave.raised = true := by
    simpa [Guard.isOver, Guard.push, Guard.leave] using Or.inr hover
  refine ⟨_, htells, (deep_entered _ _ _).append (deep_left _ _ _), fun _ => rfl, ?_⟩
  simp [hraised, opens_of_found hfind, hopen, hdeepest]

/-- A pass that runs the delegated transformers. -/
theorem tells_pass {part : List (Event σ)} (hless : p.guard.depth + 1 ≤ d)
    (hlowered : p.guard.raised = false)
    (h : Tells d (p.remember memory).enter.delegating q part)
    (hdeep : Deep (p.guard.depth + 1) (p.guard.depth + 1) part) (hdown : q.guard.raised = false)
    (result : Except PipelineError Bytes) :
    ∃ part, Tells d p q.exit part ∧ (Job.load name result).Flags d p q.exit part := by
  have hfound : Tells d p (p.remember memory) [] := tells_nil rfl rfl rfl
  have hstarted := (hfound.trans (tells_enter d _)).trans (tells_delegating d _)
  have hother : (p.guard.depth == d) = false := beq_eq_false_iff_ne.mpr (by omega)
  refine ⟨_, (hstarted.trans h).trans (tells_exit d q), ?_, ?_, ?_⟩
  · exact (((deep_entered _ _ _).append (deep_nil _ _)).append hdeep).append (deep_left _ _ _)
  · intro hdeepest
    omega
  · simp [hother, hlowered, Guard.leave, hdown]

/-- A question for a class and what the routine does with the answer. -/
theorem tells_load {r : Pass σ} {part part' : List (Event σ)}
    {result : Except PipelineError Bytes} {rest : Routine σ} {outcome : Outcome}
    (h : Tells d (p.asking name) q part)
    (hflags : (Job.load name result).Flags d (p.asking name) q part)
    (hdepth : q.guard.depth = p.guard.depth) (h' : Tells d q r part')
    (hflags' : (Job.routine rest outcome).Flags d q r part') (whole : Routine σ) :
    ∃ part, Tells d p r part ∧ (Job.routine whole outcome).Flags d p r part := by
  obtain ⟨hdeep, hquiet, hraised⟩ := hflags
  obtain ⟨hdeep', hquiet', hraised'⟩ := hflags'
  rw [asking_guard] at hdeep hquiet hraised
  rw [hdepth] at hdeep' hquiet' hraised'
  have hasked : Tells d p (p.asking name) [.loading name p.guard.depth p.session] :=
    tells_of_isPlain rfl rfl rfl
  refine ⟨_, (hasked.trans h).trans h', ?_, ?_, ?_⟩
  · have hloading : Deep (p.guard.depth + 1) p.guard.depth
        [(.loading name p.guard.depth p.session : Event σ)] :=
      deep_singleton (by simp [Event.endsAt]) (by simp [Event.opensAt])
    exact (hloading.append (hdeep.mono (Nat.le_refl _) (Nat.le_succ _))).append hdeep'
  · intro hdeepest
    rw [List.filterMap_append, List.filterMap_append, hquiet hdeepest, hquiet' hdeepest]
    rfl
  · have hothers := hdeep.any_opensAt (Nat.lt_succ_self _)
    rw [hraised', hraised, List.any_append, List.any_append, hothers]
    simp [Event.opensAt, Bool.and_or_distrib_left, Bool.or_assoc]

/-- What is told of all parts of a load. The induction is on the run; what it carries is
that the flag is down where a pass starts that is not as deep as it may be. -/
theorem Runs.tells {answer : Request σ → SessionM σ Reply} {job : Job σ}
    (h : Runs answer job p q) (hd : p.guard.maxDepth = d)
    (hholds : p.session.service.HoldsOnly Transformer.LoadsOnly) (hready : job.Ready d p) :
    ∃ part, Tells d p q part ∧ job.Flags d p q part := by
  induction h with
  | missing hfind =>
      exact ⟨[], tells_nil rfl rfl rfl, deep_nil _ _, fun _ => rfl,
        by simp [opens_of_missing hfind]⟩
  | exempt hfind hexempt =>
      exact ⟨[], tells_nil rfl rfl rfl, deep_nil _ _, fun _ => rfl,
        by simp [opens_of_found hfind, hexempt]⟩
  | @tooDeep name p f memory hfind hopen hover =>
      have hless : p.guard.maxDepth < p.guard.depth + 1 := by
        simpa [Guard.isOver, Guard.push] using hover
      have hle := hready.1
      exact tells_tooDeep hfind hopen hover (by omega) _
  | @pass name p q f memory result hfind hopen hroom hrun ih =>
      -- the pass is not as deep as it may be, so the flag is down when its calls start
      obtain ⟨-, hflag⟩ := hready
      have hless : p.guard.depth + 1 ≤ d := by
        simpa [Guard.isOver, Guard.push, hd] using hroom
      have hlowered : (p.remember memory).enter.delegating.guard.raised = false := by
        simpa [Guard.push, hflag hless, hd] using hless
      obtain ⟨part, htells, hdeep, hdown⟩ := ih hd
        (hholds.evolves (Service.evolves_delegated _))
        ⟨hless, hlowered, fun t ht => hholds t (Service.holds_of_mem_delegated ht)⟩
      exact tells_pass hless (hflag hless) htells hdeep hdown _
  | finish => exact ⟨[], tells_nil rfl rfl rfl, deep_nil _ _, fun _ => rfl, by simp⟩
  | @load name resume result outcome p q r hload hrest ihload ihrest =>
      obtain ⟨hle, hflag, hasks⟩ := hready
      cases hasks with
      | load hresume =>
          obtain ⟨part, htells, hflags⟩ := ihload hd hholds ⟨hle, hflag⟩
          have hdepth : q.guard.depth = p.guard.depth := hload.depth_eq
          have hmaxDepth : q.guard.maxDepth = d := hload.maxDepth_eq.trans hd
          have hflag' : q.guard.depth < d → q.guard.raised = false := by
            intro hless
            have hother : (p.guard.depth == d) = false := beq_eq_false_iff_ne.mpr (by omega)
            simp [hflags.2.2, hother, hflag (by omega)]
          obtain ⟨part', htells', hflags'⟩ := ihrest hmaxDepth
            (htells.holdsOnly hholds) ⟨by omega, hflag', hresume _⟩
          exact tells_load htells hflags hdepth htells' hflags' _
  | ask _ _ _ =>
      obtain ⟨-, -, hasks⟩ := hready
      cases hasks with
      | ask himpossible _ _ => exact himpossible.elim
  | @fetch resume outcome p r hrest ih =>
      obtain ⟨hle, hflag, hasks⟩ := hready
      cases hasks with
      | fetch hresume => exact ih hd hholds ⟨hle, hflag, hresume _⟩
  | @store memory rest outcome p r hrest ih =>
      obtain ⟨hle, hflag, hasks⟩ := hready
      cases hasks with
      | store hresume =>
          obtain ⟨part, htells, hflags⟩ := ih hd hholds ⟨hle, hflag, hresume⟩
          have hremembered : Tells d p (p.remember memory) [] := tells_nil rfl rfl rfl
          exact ⟨part, hremembered.trans htells, hflags⟩
  | done =>
      obtain ⟨-, hflag, -⟩ := hready
      exact ⟨[], tells_nil rfl rfl rfl, deep_nil _ _, hflag⟩
  | unreadable _ => exact ⟨[], tells_nil rfl rfl rfl, deep_nil _ _, rfl⟩
  | @stop options context t ts bytes c outcome p q hbytes hcall hfinal ih =>
      obtain ⟨hle, hflag, hts⟩ := hready
      have hasks := (hts t List.mem_cons_self).asksOnly context c
      obtain ⟨inner, htells, hflags⟩ := ih hd hholds ⟨hle, fun _ => rfl, hasks⟩
      exact tells_call hcall.depth_eq htells hflags
  | @next options context t ts bytes output c outcome result p q r hbytes hcall hkeep hrest ihcall
      ihrest =>
      obtain ⟨hle, hflag, hts⟩ := hready
      have hasks := (hts t List.mem_cons_self).asksOnly context c
      obtain ⟨inner, hinner, hflags⟩ := ihcall hd hholds ⟨hle, fun _ => rfl, hasks⟩
      have hback : q.guard.depth = p.guard.depth := hcall.depth_eq
      obtain ⟨part, htells, hdeep, hlowered⟩ := tells_call hback hinner hflags
      have hdepth := hcall.depth_after_call
      obtain ⟨part', htells', hdeep', hlowered'⟩ :=
        ihrest (hcall.maxDepth_after_call.trans hd) (htells.holdsOnly hholds)
          ⟨by omega, hlowered, fun u hu => hts u (List.mem_cons_of_mem t hu)⟩
      rw [hdepth] at hdeep'
      exact ⟨part ++ part', htells.trans htells', hdeep.append hdeep', hlowered'⟩

end Rules

/-! ## Loads at large -/

theorem serves_nothing (answer : Request σ → SessionM σ Reply) :
    Serves answer fun _ => False :=
  fun _ _ himpossible _ => himpossible.elim

/-- What a load does to a service whose transformers load only. The transformers that are
demoted, each right after its call has ended, are those that were called by a pass as deep
as passes may be and asked for a class which there is and which is not exempt, whatever
they decided then. Their names have been noted in that order, the new ones among their
normalized names have been registered as transform prefixes, and apart from the cached
list the service is what it was. -/
theorem load_demotes_reentrant {s : Session σ} (hreachable : s.service.Reachable)
    (hloads : ∀ t ∈ s.service.registry, t.LoadsOnly) (answer : Request σ → SessionM σ Reply)
    (name : String) :
    let d := s.service.config.reentranceDepth
    ∃ result p,
      Session.classBytes answer name true s = some (result, p.session) ∧
      load answer (d + 1) name (start s) = some (result, p) ∧
      (∀ t k c rest, .calling t k c :: rest <:+ p.log →
        ∃ later, onward k rest = .called t k :: later ∧
          (later.head? = some (.demoted t) ↔
            k = d ∧ (during k rest).any (Event.opensAt k) = true)) ∧
      p.log.filterMap Event.demotion? = reentrant d p.log ∧
      p.session.held = s.held ∧
      p.session.service =
        { s.service with
          exclusions :=
            { s.service.exclusions with
              transform := s.service.exclusions.transform ++
                s.service.exclusions.newPrefixes (reentrant d p.log)
              generation := s.service.exclusions.generation +
                (s.service.exclusions.newPrefixes (reentrant d p.log)).length }
          delegation := p.session.service.delegation
          demoted := s.service.demoted ++ reentrant d p.log } := by
  dsimp only
  obtain ⟨result, p, hrun, hload, hbytes⟩ :=
    exists_load (serves_nothing answer) hreachable hloads name
  obtain ⟨part, htells, -⟩ :=
    hrun.tells rfl (hreachable.holdsOnly hloads) ⟨Nat.zero_le _, fun _ => rfl⟩
  have hlog : p.log = part := by
    have hevents : p.events = part.reverse ++ [] := htells.events
    simp [log, hevents]
  have horderly := htells.accounts.orderly [] (orderly_nil _)
  have hreentrant := htells.accounts.reentrant_eq []
  rw [List.append_nil] at horderly hreentrant
  rw [show reentrant _ ([] : List (Event σ)) = [] from rfl, List.append_nil] at hreentrant
  have hheld := htells.demotes.held
  obtain ⟨delegation, hservice⟩ := htells.demotes.service
  rw [← hreentrant] at hservice
  refine ⟨result, p, hbytes, hload _ (Nat.lt_succ_self _), ?_, ?_, hheld, ?_⟩
  · rw [hlog]
    exact horderly.judged
  · rw [hlog]
    exact hreentrant.symm
  · rw [hlog, hservice, Exclusions.excludeAll_transform]
    rfl

/-- A transformer that loads the class which it edits is demoted where passes may not
nest. -/
theorem revisiting_reentrant :
    revisited.service.Reachable ∧ (∀ t ∈ revisited.service.registry, t.LoadsOnly) ∧
      ∃ result, ∃ p : Pass Unit,
        Session.classBytes (fun _ => failure) "A" true revisited = some (result, p.session) ∧
        p.log.filterMap Event.demotion? = ["revisiting"] ∧ reentrant 1 p.log = ["revisiting"] ∧
        p.session.service.demoted = ["revisiting"] := by
  have hreachable : revisited.service.Reachable := ⟨_, _, _, rfl⟩
  have hloads : ∀ t ∈ revisited.service.registry, t.LoadsOnly := by
    intro t ht
    rw [List.mem_singleton.mp ht]
    exact keeps_revisiting _
  obtain ⟨result, p, hbytes, -, -, hdemotions, -, hservice⟩ :=
    load_demotes_reentrant hreachable hloads (fun _ => failure) "A"
  have hnoted : (Session.classBytes (fun _ => failure) "A" true revisited).map
      (fun answered => answered.2.service.demoted) = some ["revisiting"] := by
    decide +kernel
  have hdemoted : p.session.service.demoted = ["revisiting"] := by
    simpa [hbytes] using hnoted
  have hreentrant : reentrant 1 p.log = ["revisiting"] := by
    rw [hservice] at hdemoted
    exact hdemoted
  exact ⟨hreachable, hloads, result, p, hbytes, hdemotions.trans hreentrant, hreentrant, hdemoted⟩

end Pass

end ClassLoom
