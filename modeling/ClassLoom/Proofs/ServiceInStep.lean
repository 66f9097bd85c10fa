import ClassLoom.Proofs.ExclusionHistory
import ClassLoom.Proofs.InStep
import ClassLoom.Proofs.PassRun

/-!
# Two services in step

Two services that hold alike transformers and alike sources, and agree in everything else,
are asked for alike things (`Session.tracks_perform`). The names that are asked for may be
spelled in different ways. Every operation of the state makes nothing of that: it brings a
name to its normal form before it compares it, stores it, hands it on or reports it. So the
first part of this file is one lemma for each of these operations, and after it the spelling
is gone: passes, chains and archives are in step because their steps are.

The events of a pass are not compared. They hold whole sessions and the names that were asked
for, and nothing that a pass does depends on them.
-/

namespace ClassLoom

variable {σ τ : Type} {L : Likeness σ τ}

/-! ## Names in other spellings -/

section Names

variable {n o : String}

theorem of_congr (h : normalize n = normalize o) : ClassName.of n = ClassName.of o :=
  Exclusions.of_eq_of_iff.mpr h.symm

theorem Exclusions.exclude_congr (e : Exclusions) (kind : ExclusionKind)
    (h : normalize n = normalize o) : e.exclude kind n = e.exclude kind o := by
  unfold Exclusions.exclude
  rw [h]

theorem Exclusions.restrictions_congr (e : Exclusions) (h : normalize n = normalize o) :
    e.restrictions n = e.restrictions o := by
  unfold Exclusions.restrictions Exclusions.isExcluded
  rw [h]

end Names

/-! ## Lists of transformers -/

section Lists

variable {ts : List (Transformer σ)} {us : List (Transformer τ)}

theorem map_eq_of_forall₂ {γ : Type} {f : Transformer σ → γ} {g : Transformer τ → γ}
    (hfg : ∀ t u, L.transformer t u → f t = g u) (h : List.Forall₂ L.transformer ts us) :
    ts.map f = us.map g := by
  induction h with
  | nil => rfl
  | cons h _ ih => rw [List.map_cons, List.map_cons, hfg _ _ h, ih]

theorem Likeness.Sound.names_eq (hL : L.Sound) (h : List.Forall₂ L.transformer ts us) :
    Reply.names ts = Reply.names us := by
  unfold Reply.names
  rw [map_eq_of_forall₂ (fun _ _ ht => hL.name ht) h]

theorem Likeness.Sound.forall₂_delegatedOf (hL : L.Sound) (h : List.Forall₂ L.transformer ts us)
    (e : Exclusions) : List.Forall₂ L.transformer (delegatedOf ts e) (delegatedOf us e) := by
  refine List.rel_filter (R := L.transformer) ?_ h
  intro t u ht
  dsimp only [Exclusions.admits]
  rw [hL.name ht, hL.isDelegationExcluded ht]

theorem Likeness.Sound.findSome?_remapper (hL : L.Sound) (h : List.Forall₂ L.transformer ts us) :
    Option.Rel (fun f g => ∀ text, Agrees L.memory (f text) (g text))
      (ts.findSome? Transformer.remapper) (us.findSome? Transformer.remapper) := by
  induction h with
  | nil => exact .none
  | @cons t u _ _ h _ ih =>
      have hremapper := hL.remapper h
      rw [List.findSome?_cons, List.findSome?_cons]
      generalize t.remapper = f, u.remapper = g at hremapper
      cases hremapper with
      | none => exact ih
      | some hfg => exact .some hfg

end Lists

/-! ## Services -/

/-- The caches hold alike lists, built under the same generation. -/
structure Delegation.Like (L : Likeness σ τ) (d : Delegation σ) (e : Delegation τ) : Prop where
  cached : Option.Rel (fun a b => a.generation = b.generation ∧
    List.Forall₂ L.transformer a.transformers b.transformers) d.cached e.cached
  builds : d.builds = e.builds

/-- The services hold alike transformers and sources, and everything else is the same. -/
structure Service.Like (L : Likeness σ τ) (s : Service σ) (r : Service τ) : Prop where
  config : s.config = r.config
  options : s.options = r.options
  registry : List.Forall₂ L.transformer s.registry r.registry
  exclusions : s.exclusions = r.exclusions
  delegation : s.delegation.Like L r.delegation
  sources : List.Forall₂ L.source s.sources r.sources
  demoted : s.demoted = r.demoted

section Delegations

variable {d : Delegation σ} {d' : Delegation τ}

theorem Delegation.Like.current? (h : d.Like L d') (e : Exclusions) :
    Option.Rel (List.Forall₂ L.transformer) (d.current? e) (d'.current? e) := by
  have hcached := h.cached
  unfold Delegation.current?
  generalize d.cached = a, d'.cached = b at hcached
  cases hcached with
  | none => exact .none
  | some hab =>
      dsimp only
      rw [hab.1]
      split
      · exact .some hab.2
      · exact .none

theorem Delegation.Like.state_eq (h : d.Like L d') (e : Exclusions) : d.state e = d'.state e := by
  have hcurrent := h.current? e
  unfold Delegation.state
  generalize d.current? e = a, d'.current? e = b at hcurrent
  cases hcurrent with
  | none => rfl
  | some _ => rfl

theorem Delegation.Like.get (h : d.Like L d') (hL : L.Sound) {ts : List (Transformer σ)}
    {us : List (Transformer τ)} (hts : List.Forall₂ L.transformer ts us) (e : Exclusions) :
    List.Forall₂ L.transformer (d.get ts e).1 (d'.get us e).1 ∧
      (d.get ts e).2.Like L (d'.get us e).2 := by
  have hcurrent := h.current? e
  unfold Delegation.get
  generalize d.current? e = a, d'.current? e = b at hcurrent
  cases hcurrent with
  | none =>
      have hbuilt := hL.forall₂_delegatedOf hts e
      exact ⟨hbuilt, .some ⟨rfl, hbuilt⟩, congrArg (· + 1) h.builds⟩
  | some hab => exact ⟨hab, h⟩

theorem Delegation.Like.invalidate (h : d.Like L d') : d.invalidate.Like L d'.invalidate :=
  ⟨.none, h.builds⟩

end Delegations

namespace Service.Like

variable {s : Service σ} {r : Service τ} {n o : String}

theorem register (h : s.Like L r) {t : Transformer σ} {u : Transformer τ}
    (ht : L.transformer t u) : (s.register t).Like L (r.register u) :=
  { h with registry := List.rel_append h.registry (.cons ht .nil) }

theorem addSource (h : s.Like L r) {a : Source σ} {b : Source τ} (hab : L.source a b) :
    (s.addSource a).Like L (r.addSource b) :=
  { h with sources := List.rel_append h.sources (.cons hab .nil) }

theorem invalidate (h : s.Like L r) : s.invalidate.Like L r.invalidate :=
  { h with delegation := h.delegation.invalidate }

theorem withExclusions (h : s.Like L r) {e f : Exclusions} (hef : e = f) :
    Service.Like L { s with exclusions := e } { r with exclusions := f } :=
  { h with exclusions := hef }

theorem delegated (h : s.Like L r) (hL : L.Sound) :
    List.Forall₂ L.transformer s.delegated.1 r.delegated.1 ∧
      s.delegated.2.Like L r.delegated.2 := by
  have hget := h.delegation.get hL h.registry s.exclusions
  have hsame : r.delegation.get r.registry s.exclusions =
      r.delegation.get r.registry r.exclusions := by rw [h.exclusions]
  rw [hsame] at hget
  exact ⟨hget.1, { h with delegation := hget.2 }⟩

theorem excludeDirect (h : s.Like L r) (kind : ExclusionKind) (hname : normalize n = normalize o) :
    (s.excludeDirect kind n).1 = (r.excludeDirect kind o).1 ∧
      (s.excludeDirect kind n).2.Like L (r.excludeDirect kind o).2 := by
  have hsame : s.exclusions.exclude kind n = r.exclusions.exclude kind o := by
    rw [h.exclusions, Exclusions.exclude_congr _ kind hname]
  exact ⟨congrArg Prod.fst hsame, h.withExclusions (congrArg Prod.snd hsame)⟩

theorem exclude (h : s.Like L r) (kind : ExclusionKind) (hname : normalize n = normalize o) :
    (s.exclude kind n).Like L (r.exclude kind o) := by
  obtain ⟨hnew, hlike⟩ := h.excludeDirect kind hname
  unfold Service.exclude
  dsimp only
  rw [hnew]
  split
  · exact hlike.invalidate
  · exact hlike

theorem excludeTransformer (h : s.Like L r) (hname : normalize n = normalize o) :
    (s.excludeTransformer n).Like L (r.excludeTransformer o) :=
  (h.excludeDirect .transform hname).2.invalidate

theorem demote (h : s.Like L r) (name : String) : (s.demote name).Like L (r.demote name) :=
  { h.excludeTransformer rfl with demoted := congrArg (· ++ [name]) h.demoted }

theorem describe_eq (h : s.Like L r) (hL : L.Sound) : s.describe = r.describe := by
  have hregistry : s.registry.map Transformer.describe = r.registry.map Transformer.describe := by
    refine map_eq_of_forall₂ (fun t u ht => ?_) h.registry
    unfold Transformer.describe
    rw [hL.name ht, hL.isDelegationExcluded ht]
  unfold Service.describe describeTransformers
  rw [h.config, h.exclusions, hregistry]

/-! ### Finding classes -/

theorem unmap (h : s.Like L r) (hL : L.Sound) (name : ClassName) :
    Agrees L.memory (s.unmap name) (r.unmap name) := by
  have hremapper := hL.findSome?_remapper (List.rel_reverse h.registry)
  unfold Service.unmap Service.remapper?
  generalize s.registry.reverse.findSome? Transformer.remapper = f,
    r.registry.reverse.findSome? Transformer.remapper = g at hremapper
  cases hremapper with
  | none => exact agrees_pure name
  | some hfg => exact (hfg name.dotted).then fun text => agrees_pure _

theorem questions (h : s.Like L r) (raw requested : ClassName) :
    List.Forall₂ (fun p q => L.source p.source q.source ∧ p.name = q.name)
      (s.questions raw requested) (r.questions raw requested) := by
  unfold Service.questions
  induction candidates raw requested with
  | nil => exact .nil
  | cons name names ih =>
      rw [List.flatMap_cons, List.flatMap_cons]
      refine List.rel_append ?_ ih
      exact List.rel_map (R := L.source) (fun a b hab => ⟨hab, rfl⟩) h.sources

theorem firstAnswer (hL : L.Sound) {ps : List (Question σ)} {qs : List (Question τ)}
    (h : List.Forall₂ (fun p q => L.source p.source q.source ∧ p.name = q.name) ps qs) :
    Agrees L.memory (Source.firstAnswer ps) (Source.firstAnswer qs) := by
  induction h with
  | nil => exact agrees_pure _
  | @cons p q ps qs hpq _ ih =>
      unfold Source.firstAnswer
      rw [hpq.2]
      refine (hL.find hpq.1 q.name).then fun answer => ?_
      split
      · exact ih
      · exact agrees_pure _

theorem find (h : s.Like L r) (hL : L.Sound) (hname : normalize n = normalize o) :
    Agrees L.memory (s.find n) (r.find o) := by
  unfold Service.find
  rw [of_congr hname]
  refine (h.unmap hL _).then fun raw => ?_
  refine (firstAnswer hL (h.questions raw _)).then fun answer => ?_
  split
  · exact agrees_pure _
  · exact agrees_pure _
  · exact agrees_pure _

theorem rawBytes (h : s.Like L r) (hL : L.Sound) (hname : normalize n = normalize o) :
    Agrees L.memory (s.rawBytes n) (r.rawBytes o) :=
  (h.find hL hname).then fun _ => agrees_pure _

end Service.Like

/-! ## Sessions -/

/-- The services are alike, the memories too, and so are the chains that were set aside. -/
structure Session.Like (L : Likeness σ τ) (s : Session σ) (r : Session τ) : Prop where
  service : s.service.Like L r.service
  memory : L.memory s.memory r.memory
  held : Option.Rel (List.Forall₂ L.transformer) s.held r.held

namespace Session

theorem tracks_withMemory {γ : Type} {x : Service σ → StateM σ γ} {y : Service τ → StateM τ γ}
    (h : ∀ s r, s.Like L r → Agrees L.memory (x s) (y r)) :
    Tracks (Session.Like L) Eq (withMemory x) (withMemory y) := by
  intro s r hs
  obtain ⟨hsame, hmemory⟩ := h _ _ hs.service _ _ hs.memory
  exact .some ⟨hsame, { hs with memory := hmemory }⟩

theorem tracks_modifyService {f : Service σ → Service σ} {g : Service τ → Service τ}
    (h : ∀ s r, s.Like L r → (f s).Like L (g r)) :
    Tracks (Session.Like L) Eq (modifyService f) (modifyService g) :=
  tracks_modify fun _ _ hs => { hs with service := h _ _ hs.service }

theorem tracks_changing {f : Service σ → Service σ} {g : Service τ → Service τ}
    (h : ∀ s r, s.Like L r → (f s).Like L (g r)) :
    Tracks (Session.Like L) Eq (changing f) (changing g) :=
  (tracks_modifyService h).then fun _ => tracks_pure rfl

theorem tracks_reading {γ : Type} {f : Service σ → γ} {g : Service τ → γ}
    (h : ∀ s r, s.Like L r → f s = g r) :
    Tracks (Session.Like L) Eq (reading f) (reading g) :=
  tracks_get.bind fun _ _ hs => tracks_pure (h _ _ hs.service)

theorem tracks_fetch : Tracks (Session.Like L) L.memory fetch fetch :=
  tracks_get.bind fun _ _ hs => tracks_pure hs.memory

theorem tracks_store {m : σ} {n : τ} (h : L.memory m n) :
    Tracks (Session.Like L) Eq (store m) (store n) :=
  tracks_modify fun _ _ hs => { hs with memory := h }

theorem tracks_delegated (hL : L.Sound) :
    Tracks (Session.Like L) (List.Forall₂ L.transformer) delegated delegated := by
  intro s r hs
  obtain ⟨hlist, hservice⟩ := hs.service.delegated hL
  exact .some ⟨hlist, { hs with service := hservice }⟩

end Session

/-! ## Passes -/

namespace Pass

/-- The passes are in alike sessions and equally deep. -/
structure Like (L : Likeness σ τ) (p : Pass σ) (q : Pass τ) : Prop where
  session : p.session.Like L q.session
  guard : p.guard = q.guard

theorem tracks_onSession {γ δ : Type} {A : γ → δ → Prop} {x : SessionM σ γ} {y : SessionM τ δ}
    (h : Tracks (Session.Like L) A x y) : Tracks (Pass.Like L) A (onSession x) (onSession y) := by
  intro p q hp
  have hboth := h _ _ hp.session
  unfold onSession
  generalize x p.session = a, y q.session = b at hboth
  cases hboth with
  | none => exact .none
  | some hab => exact .some ⟨hab.1, hab.2, hp.guard⟩

theorem tracks_modifyGuard (change : Guard → Guard) :
    Tracks (Pass.Like L) Eq (modifyGuard change) (modifyGuard change) :=
  tracks_modify fun _ _ hp => ⟨hp.session, congrArg change hp.guard⟩

/-- Whatever is noted. -/
theorem tracks_note (e : Nat → Event σ) (e' : Nat → Event τ) :
    Tracks (Pass.Like L) Eq (note e) (note e') :=
  tracks_modify fun _ _ hp => ⟨hp.session, hp.guard⟩

theorem tracks_noteLoading (n o : String) :
    Tracks (Pass.Like L) Eq (noteLoading n) (noteLoading o) :=
  tracks_modify fun _ _ hp => ⟨hp.session, hp.guard⟩

theorem tracks_settle (hL : L.Sound) {t : Transformer σ} {u : Transformer τ} (h : L.transformer t u) :
    Tracks (Pass.Like L) Eq (settle t) (settle u) := by
  refine tracks_get.bind fun p q hp => ?_
  rw [hp.guard, hL.name h]
  split
  · refine (tracks_onSession (Session.tracks_modifyService fun _ _ hs => hs.demote _)).then ?_
    exact fun _ => (tracks_note _ _).then fun _ => tracks_modifyGuard _
  · exact tracks_pure rfl

section Hosts

variable {ld : String → PassM σ (Except PipelineError Bytes)}
  {ld' : String → PassM τ (Except PipelineError Bytes)}
  {answer : Request σ → SessionM σ Reply} {answer' : Request τ → SessionM τ Reply}

/-- Alike requests are answered alike. -/
def AnswersAlike (L : Likeness σ τ) (answer : Request σ → SessionM σ Reply)
    (answer' : Request τ → SessionM τ Reply) : Prop :=
  ∀ request request', Request.Like L request request' →
    Tracks (Session.Like L) Eq (answer request) (answer' request')

/-- A class is loaded alike, however its name is spelled. -/
def LoadsAlike (L : Likeness σ τ) (ld : String → PassM σ (Except PipelineError Bytes))
    (ld' : String → PassM τ (Except PipelineError Bytes)) : Prop :=
  ∀ n o, normalize n = normalize o → Tracks (Pass.Like L) Eq (ld n) (ld' o)

variable (hL : L.Sound) (hanswer : AnswersAlike L answer answer') (hld : LoadsAlike L ld ld')

include hanswer hld

theorem host_inStep : (host ld answer).InStep L (Pass.Like L) (host ld' answer') where
  calling := fun {t u} _ _ c => tracks_note (.calling t.name · c) (.calling u.name · c)
  called := fun {t u} _ => tracks_note (.called t.name) (.called u.name)
  load h := (tracks_noteLoading _ _).then fun _ => hld _ _ h
  ask h := tracks_onSession (hanswer _ _ h)
  fetch := tracks_onSession Session.tracks_fetch
  store h := tracks_onSession (Session.tracks_store h)
  renew h _ _ hp :=
    .some ⟨rfl, { hp.session with memory := h _ _ hp.session.memory }, hp.guard⟩
  replace h _ _ hp :=
    .some ⟨rfl, { hp.session with memory := h _ }, hp.guard⟩

include hL

theorem tracks_runOne {t : Transformer σ} {u : Transformer τ} (h : L.transformer t u)
    (options : WriterOptions) (context : Context) (bytes : Bytes) :
    Tracks (Pass.Like L) Eq (runOne (host ld answer) options context t bytes)
      (runOne (host ld' answer') options context u bytes) := by
  refine (tracks_modifyGuard _).then fun _ => ?_
  refine (tracks_apply hL (host_inStep hanswer hld) h options context bytes).then fun result => ?_
  exact (tracks_settle hL h).then fun _ => tracks_pure rfl

theorem tracks_runAll {ts : List (Transformer σ)} {us : List (Transformer τ)}
    (h : List.Forall₂ L.transformer ts us) (options : WriterOptions) (context : Context)
    (bytes : Bytes) :
    Tracks (Pass.Like L) Eq (runAll (host ld answer) options context ts bytes)
      (runAll (host ld' answer') options context us bytes) := by
  induction h generalizing bytes with
  | nil => exact tracks_pure rfl
  | cons h _ ih =>
      refine (tracks_runOne hL hanswer hld h options context bytes).then fun applied => ?_
      split
      · exact ih _
      · exact tracks_pure rfl

theorem tracks_body (f : Found) :
    Tracks (Pass.Like L) Eq (body (host ld answer) f) (body (host ld' answer') f) := by
  refine tracks_get.bind fun p q hp => ?_
  rw [hp.guard]
  split
  · exact tracks_pure rfl
  · refine (tracks_onSession (Session.tracks_delegated hL)).bind fun ts us hts => ?_
    refine tracks_get.bind fun p q hp => ?_
    rw [hp.session.service.options]
    exact tracks_runAll hL hanswer hld hts _ _ _

theorem tracks_run (f : Found) :
    Tracks (Pass.Like L) Eq (run (host ld answer) f) (run (host ld' answer') f) := by
  refine (tracks_modifyGuard _).then fun _ => (tracks_note _ _).then fun _ => ?_
  refine (tracks_body hL hanswer hld f).then fun result => ?_
  exact (tracks_modifyGuard _).then fun _ => (tracks_note _ _).then fun _ => tracks_pure rfl

theorem loadsAlike_loadWith :
    LoadsAlike L (loadWith (host ld answer)) (loadWith (host ld' answer')) := by
  intro n o h
  refine (tracks_onSession (Session.tracks_withMemory fun _ _ hs => hs.find hL h)).then ?_
  intro found
  split
  · exact tracks_pure rfl
  · refine tracks_get.bind fun p q hp => ?_
    unfold Service.isExempt
    rw [hp.session.service.exclusions]
    split
    · exact tracks_pure rfl
    · exact (tracks_run hL hanswer hld _).then fun result => tracks_pure rfl

end Hosts

section Loads

variable {answer : Request σ → SessionM σ Reply} {answer' : Request τ → SessionM τ Reply}
  (hL : L.Sound) (hanswer : AnswersAlike L answer answer')

include hL hanswer

theorem loadsAlike_load (room : Nat) : LoadsAlike L (load answer room) (load answer' room) := by
  induction room with
  | zero => exact fun _ _ _ => tracks_failure
  | succ room ih => exact loadsAlike_loadWith hL hanswer ih

end Loads

end Pass

/-! ## Requests -/

namespace Session

open Pass (AnswersAlike)

section Answers

variable {answer : Request σ → SessionM σ Reply} {answer' : Request τ → SessionM τ Reply}
  (hL : L.Sound) (hanswer : AnswersAlike L answer answer')

include hanswer

theorem host_inStep : (host answer).InStep L (Session.Like L) (host answer') where
  calling _ _ _ := tracks_pure rfl
  called _ := tracks_pure rfl
  load h := by
    refine tracks_pure ?_
    unfold nothingToLoad
    rw [of_congr h]
  ask h := hanswer _ _ h
  fetch := tracks_fetch
  store h := tracks_store h
  renew h _ _ hs := .some ⟨rfl, { hs with memory := h _ _ hs.memory }⟩
  replace h _ _ hs := .some ⟨rfl, { hs with memory := h _ }⟩

include hL

theorem tracks_applyTransformers {ts : List (Transformer σ)} {us : List (Transformer τ)}
    (h : List.Forall₂ L.transformer ts us) (bytes : Bytes) (name : ClassName) :
    Tracks (Session.Like L) Eq (applyTransformers answer ts bytes name)
      (applyTransformers answer' us bytes name) := by
  refine tracks_get.bind fun s r hs => ?_
  unfold Service.chainOf
  rw [hs.service.options, hs.service.exclusions]
  exact tracks_applyWith hL (host_inStep hanswer) h _ _ bytes name

theorem tracks_loadBytes {n o : String} (h : normalize n = normalize o) :
    Tracks (Session.Like L) Eq (loadBytes answer n) (loadBytes answer' o) := by
  intro s r hs
  have hstart : (Pass.start s).Like L (Pass.start r) :=
    ⟨hs, congrArg (fun c : Config => Guard.new c.reentranceDepth) hs.service.config⟩
  have hboth := Pass.loadsAlike_load hL hanswer (s.service.config.reentranceDepth + 1) n o h _ _
    hstart
  unfold loadBytes
  rw [← hs.service.config]
  dsimp only
  generalize Pass.load answer _ n (Pass.start s) = a, Pass.load answer' _ o (Pass.start r) = b
    at hboth
  cases hboth with
  | none => exact .none
  | some hab => exact .some ⟨hab.1, hab.2.session⟩

theorem tracks_classBytes {n o : String} (h : normalize n = normalize o) (run : Bool) :
    Tracks (Session.Like L) Eq (classBytes answer n run) (classBytes answer' o run) := by
  unfold classBytes
  split
  · exact tracks_loadBytes hL hanswer h
  · exact tracks_withMemory fun _ _ hs => hs.rawBytes hL h

/-- Alike requests to alike services are answered alike, if those are that transformers send
meanwhile. -/
theorem answersAlike_answerWith : AnswersAlike L (answerWith answer) (answerWith answer') := by
  intro request request' h
  cases h with
  | register ht => exact tracks_changing fun _ _ hs => hs.register ht
  | transformers =>
      refine tracks_get.bind fun _ _ hs => tracks_pure ?_
      exact hL.names_eq hs.service.registry
  | addSource hab => exact tracks_changing fun _ _ hs => hs.addSource hab
  | delegated => exact (tracks_delegated hL).bind fun _ _ hts => tracks_pure (hL.names_eq hts)
  | state =>
      refine (tracks_reading fun s r hs => ?_).then fun _ => tracks_pure rfl
      unfold Service.delegationState
      rw [hs.exclusions, hs.delegation.state_eq]
  | exclude kind hname => exact tracks_changing fun _ _ hs => hs.exclude kind hname
  | excludeDirect kind hname =>
      refine Tracks.then (x := Session.excludeDirect _ _) ?_ fun _ => tracks_pure rfl
      intro s r hs
      obtain ⟨hnew, hservice⟩ := hs.service.excludeDirect kind hname
      exact .some ⟨hnew, { hs with service := hservice }⟩
  | excludeTransformer hname => exact tracks_changing fun _ _ hs => hs.excludeTransformer hname
  | beginPhase => exact tracks_changing fun _ _ hs => hs.invalidate
  | demoted => exact (tracks_reading fun _ _ hs => hs.demoted).then fun _ => tracks_pure rfl
  | prefixes kind =>
      refine (tracks_reading fun s r hs => ?_).then fun _ => tracks_pure rfl
      rw [hs.exclusions]
  | generation =>
      refine (tracks_reading fun s r hs => ?_).then fun _ => tracks_pure rfl
      rw [hs.exclusions]
  | restrictions hname =>
      refine (tracks_reading fun s r hs => ?_).then fun _ => tracks_pure rfl
      rw [hs.exclusions, Exclusions.restrictions_congr _ hname]
  | unmap hname =>
      rw [answerWith, answerWith, of_congr hname]
      exact (tracks_withMemory fun _ _ hs => hs.unmap hL _).then fun _ => tracks_pure rfl
  | classBytes run hname =>
      exact (tracks_classBytes hL hanswer hname run).then fun _ => tracks_pure rfl
  | decodedClass run hname =>
      refine (tracks_classBytes hL hanswer hname run).then fun _ => tracks_pure ?_
      unfold decodeProvided
      rw [of_congr hname]
  | markLoaded hname =>
      refine tracks_changing fun s r hs => hs.withExclusions ?_
      unfold Exclusions.markLoaded
      rw [hs.exclusions, of_congr hname]
  | isLoaded hname =>
      refine (tracks_reading fun s r hs => ?_).then fun _ => tracks_pure rfl
      unfold Exclusions.isLoaded
      rw [hs.exclusions, of_congr hname]
  | markInvalid hname =>
      refine tracks_changing fun s r hs => hs.withExclusions ?_
      unfold Exclusions.markInvalid
      rw [hs.exclusions, of_congr hname]
  | isInvalid hname =>
      refine (tracks_reading fun s r hs => ?_).then fun _ => tracks_pure rfl
      unfold Exclusions.isInvalid
      rw [hs.exclusions, of_congr hname]
  | applyChain bytes hname =>
      rw [answerWith, answerWith, of_congr hname]
      refine (tracks_delegated hL).bind fun ts us hts => ?_
      exact (tracks_applyTransformers hL hanswer hts bytes _).then fun _ => tracks_pure rfl
  | holdChain =>
      refine (tracks_delegated hL).bind fun ts us hts => ?_
      refine (tracks_modify fun _ _ hs => { hs with held := .some hts }).then fun _ => ?_
      exact tracks_pure (hL.names_eq hts)
  | applyHeld bytes hname =>
      rw [answerWith, answerWith, of_congr hname]
      refine tracks_get.bind fun s r hs => ?_
      have hheld := hs.held
      generalize s.held = a, r.held = b at hheld
      cases hheld with
      | none => exact tracks_pure rfl
      | some hts =>
          exact (tracks_applyTransformers hL hanswer hts bytes _).then fun _ => tracks_pure rfl
  | transformArchive folder file =>
      refine (tracks_delegated hL).bind fun ts us hts => ?_
      refine (tracks_transform_folder (tracks_applyTransformers hL hanswer hts) folder file).then ?_
      exact fun _ => tracks_pure rfl
  | config => exact (tracks_reading fun _ _ hs => hs.config).then fun _ => tracks_pure rfl
  | describe =>
      exact (tracks_reading fun _ _ hs => hs.describe_eq hL).then fun _ => tracks_pure rfl

end Answers

/-- Alike requests are answered alike, however deep requests nest. -/
theorem answersAlike_perform (hL : L.Sound) (depth : Nat) :
    AnswersAlike L (perform depth) (perform depth) := by
  induction depth with
  | zero => exact fun _ _ _ => tracks_failure
  | succ depth ih => exact answersAlike_answerWith hL ih

end Session

/-! ## Clients -/

/-- What a client of a service does: it sends a request, or it adds a class to a store that is
kept somewhere in the memory. -/
inductive Operation (σ : Type) where
  | ask (request : Request σ)
  | insert (place : (ClassStore → ClassStore) → σ → σ) (name : String) (bytes : Bytes)

/-- Does it, where requests may nest so deep. -/
def Operation.perform (depth : Nat) : Operation σ → SessionM σ Reply
  | .ask request => Session.perform depth request
  | .insert place name bytes => do
    modify fun s => { s with memory := place (·.insert name bytes) s.memory }
    return .done

/-- The operations are the same but for spelling names, bring alike things, and reach stores in
alike places. -/
inductive Operation.Like (L : Likeness σ τ) : Operation σ → Operation τ → Prop where
  | ask {request : Request σ} {request' : Request τ} (h : Request.Like L request request') :
      Operation.Like L (.ask request) (.ask request')
  | insert {place : (ClassStore → ClassStore) → σ → σ} {place' : (ClassStore → ClassStore) → τ → τ}
      {n o : String} (bytes : Bytes)
      (hplace : ∀ change m m', L.memory m m' → L.memory (place change m) (place' change m'))
      (h : normalize n = normalize o) :
      Operation.Like L (.insert place n bytes) (.insert place' o bytes)

namespace Session

/-- Does operations one after the other. For each there is the reply. -/
def performAll (depth : Nat) (ops : List (Operation σ)) : SessionM σ (List Reply) :=
  ops.mapM (Operation.perform depth)

theorem tracks_operation (hL : L.Sound) (depth : Nat) {op : Operation σ} {op' : Operation τ}
    (h : op.Like L op') :
    Tracks (Session.Like L) Eq (op.perform depth) (op'.perform depth) := by
  cases h with
  | ask hrequest => exact answersAlike_perform hL depth _ _ hrequest
  | insert bytes hplace hname =>
      refine (tracks_modify fun s r hs => ?_).then fun _ => tracks_pure rfl
      unfold ClassStore.insert
      rw [of_congr hname]
      exact { hs with memory := hplace _ _ _ hs.memory }

theorem tracks_performAll (hL : L.Sound) (depth : Nat) {ops : List (Operation σ)}
    {ops' : List (Operation τ)} (h : List.Forall₂ (Operation.Like L) ops ops') :
    Tracks (Session.Like L) Eq (performAll depth ops) (performAll depth ops') := by
  unfold performAll
  induction h with
  | nil => exact tracks_pure rfl
  | cons h _ ih =>
      rw [List.mapM_cons, List.mapM_cons]
      refine (tracks_operation hL depth h).then fun reply => ?_
      exact ih.then fun replies => tracks_pure rfl

/-- The replies to the operations, and the memory in the end; nothing if requests nest deeper
than `depth`. -/
def results (depth : Nat) (ops : List (Operation σ)) (s : Session σ) :
    Option (List Reply × σ) :=
  (performAll depth ops s).map fun (replies, s') => (replies, s'.memory)

theorem results_like (hL : L.Sound) {s : Session σ} {s' : Session τ}
    (hs : s.Like L s') {ops : List (Operation σ)} {ops' : List (Operation τ)}
    (hops : List.Forall₂ (Operation.Like L) ops ops') (depth : Nat) :
    Option.Rel (fun a b => a.1 = b.1 ∧ L.memory a.2 b.2) (results depth ops s)
      (results depth ops' s') := by
  have hboth := tracks_performAll hL depth hops s s' hs
  unfold results
  generalize performAll depth ops s = a, performAll depth ops' s' = b at hboth
  cases hboth with
  | none => exact .none
  | some hab => exact .some ⟨hab.1, hab.2.memory⟩

end Session

end ClassLoom
