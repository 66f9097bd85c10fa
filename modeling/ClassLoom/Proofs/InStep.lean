import ClassLoom.Chain
import ClassLoom.Proofs.Success
import Mathlib.Data.List.Forall2

/-!
# Two worlds in step

A statement about two runs of the same code, on inputs that are alike in some sense, is an
induction on the code that never says anything: both runs do the same next step, and what
they have at hand stays alike. The induction is worth doing once. Here it is done for
everything that transformers are run by, and for any idea of which memories, sources and
transformers are alike (a `Likeness`), the memories of the two runs being of any two types.

Of alike transformers it is only asked that they stay in step whoever runs them, as long as
those who run them stay in step themselves (`Likeness.Sound`). So a likeness may be as coarse
as spelling names differently, or relate a transformer to one that does the same and keeps
notes about it.

Hosts here act on a state and may give up, and two actions that track each other give up
together (`Tracks`).
-/

namespace ClassLoom

/-! ## Actions that track each other -/

section Tracks

variable {α β γ δ γ' δ' : Type}

/-- Started in related states, the actions give up together, or they give related things and
end in related states. -/
def Tracks (S : α → β → Prop) (A : γ → δ → Prop) (x : StateT α Option γ)
    (y : StateT β Option δ) : Prop :=
  ∀ s t, S s t → Option.Rel (fun p q => A p.1 q.1 ∧ S p.2 q.2) (x s) (y t)

variable {S : α → β → Prop} {A : γ → δ → Prop} {B : γ' → δ' → Prop}

theorem tracks_pure {a : γ} {b : δ} (h : A a b) :
    Tracks S A (pure a : StateT α Option γ) (pure b) :=
  fun _ _ hs => .some ⟨h, hs⟩

theorem tracks_failure : Tracks S A (failure : StateT α Option γ) (failure : StateT β Option δ) :=
  fun _ _ _ => .none

theorem tracks_get : Tracks S S (get : StateT α Option α) (get : StateT β Option β) :=
  fun _ _ hs => .some ⟨hs, hs⟩

theorem tracks_modify {f : α → α} {g : β → β} (h : ∀ s t, S s t → S (f s) (g t)) :
    Tracks S Eq (modify f : StateT α Option PUnit) (modify g) :=
  fun s t hs => .some ⟨rfl, h s t hs⟩

theorem Tracks.bind {x : StateT α Option γ} {y : StateT β Option δ}
    {f : γ → StateT α Option γ'} {g : δ → StateT β Option δ'} (h : Tracks S A x y)
    (hrest : ∀ a b, A a b → Tracks S B (f a) (g b)) : Tracks S B (x >>= f) (y >>= g) := by
  intro s t hs
  have hboth := h s t hs
  show Option.Rel _ ((x s).bind fun p => f p.1 p.2) ((y t).bind fun q => g q.1 q.2)
  generalize x s = p, y t = q at hboth
  cases hboth with
  | none => exact .none
  | some hpq => exact hrest _ _ hpq.1 _ _ hpq.2

/-- Both actions give the same. -/
theorem Tracks.then {x : StateT α Option γ} {y : StateT β Option γ}
    {f : γ → StateT α Option γ'} {g : γ → StateT β Option δ'} (h : Tracks S Eq x y)
    (hrest : ∀ a, Tracks S B (f a) (g a)) : Tracks S B (x >>= f) (y >>= g) := by
  refine h.bind fun a b hab => ?_
  rw [hab]
  exact hrest b

variable {ε : Type}

theorem tracks_lift {x : StateT α Option γ} {y : StateT β Option γ} (h : Tracks S Eq x y) :
    Tracks S Eq (ExceptT.lift x : ExceptT ε (StateT α Option) γ).run
      (ExceptT.lift y : ExceptT ε (StateT β Option) γ).run :=
  h.then fun _ => tracks_pure rfl

theorem Tracks.then_run {x : ExceptT ε (StateT α Option) γ} {y : ExceptT ε (StateT β Option) γ}
    {f : γ → ExceptT ε (StateT α Option) γ'} {g : γ → ExceptT ε (StateT β Option) γ'}
    (h : Tracks S Eq x.run y.run) (hrest : ∀ a, Tracks S Eq (f a).run (g a).run) :
    Tracks S Eq (x >>= f).run (y >>= g).run := by
  rw [ExceptT.run_bind, ExceptT.run_bind]
  refine h.then fun result => ?_
  cases result with
  | ok a => exact hrest a
  | error e => exact tracks_pure rfl

end Tracks

/-- Started on related memories, the actions give the same and end on related memories. -/
def Agrees {σ τ γ : Type} (R : σ → τ → Prop) (x : StateM σ γ) (y : StateM τ γ) : Prop :=
  ∀ m n, R m n → (x m).1 = (y n).1 ∧ R (x m).2 (y n).2

theorem Agrees.then {σ τ γ δ : Type} {R : σ → τ → Prop} {x : StateM σ γ} {y : StateM τ γ}
    {f : γ → StateM σ δ} {g : γ → StateM τ δ} (h : Agrees R x y)
    (hrest : ∀ a, Agrees R (f a) (g a)) : Agrees R (x >>= f) (y >>= g) := by
  intro m n hm
  obtain ⟨hsame, hmemory⟩ := h m n hm
  rw [stateM_bind, stateM_bind, hsame]
  exact hrest _ _ _ hmemory

theorem agrees_pure {σ τ γ : Type} {R : σ → τ → Prop} (a : γ) :
    Agrees R (pure a : StateM σ γ) (pure a) :=
  fun _ _ hm => ⟨rfl, hm⟩

/-! ## What is alike -/

/-- An idea of which memories, sources and transformers are alike. -/
structure Likeness (σ τ : Type) where
  memory : σ → τ → Prop
  source : Source σ → Source τ → Prop
  transformer : Transformer σ → Transformer τ → Prop

variable {σ τ α β : Type}

/-- The requests are the same but for spelling names and prefixes of classes, and for bringing
alike transformers and sources. -/
inductive Request.Like (L : Likeness σ τ) : Request σ → Request τ → Prop where
  | register {t : Transformer σ} {u : Transformer τ} (h : L.transformer t u) :
      Request.Like L (.register t) (.register u)
  | transformers : Request.Like L .transformers .transformers
  | addSource {s : Source σ} {r : Source τ} (h : L.source s r) :
      Request.Like L (.addSource s) (.addSource r)
  | delegated : Request.Like L .delegated .delegated
  | state : Request.Like L .state .state
  | exclude (kind : ExclusionKind) {n o : String} (h : normalize n = normalize o) :
      Request.Like L (.exclude kind n) (.exclude kind o)
  | excludeDirect (kind : ExclusionKind) {n o : String} (h : normalize n = normalize o) :
      Request.Like L (.excludeDirect kind n) (.excludeDirect kind o)
  | excludeTransformer {n o : String} (h : normalize n = normalize o) :
      Request.Like L (.excludeTransformer n) (.excludeTransformer o)
  | beginPhase : Request.Like L .beginPhase .beginPhase
  | demoted : Request.Like L .demoted .demoted
  | prefixes (kind : ExclusionKind) : Request.Like L (.prefixes kind) (.prefixes kind)
  | generation : Request.Like L .generation .generation
  | restrictions {n o : String} (h : normalize n = normalize o) :
      Request.Like L (.restrictions n) (.restrictions o)
  | unmap {n o : String} (h : normalize n = normalize o) : Request.Like L (.unmap n) (.unmap o)
  | classBytes (run : Bool) {n o : String} (h : normalize n = normalize o) :
      Request.Like L (.classBytes n run) (.classBytes o run)
  | decodedClass (run : Bool) {n o : String} (h : normalize n = normalize o) :
      Request.Like L (.decodedClass n run) (.decodedClass o run)
  | markLoaded {n o : String} (h : normalize n = normalize o) :
      Request.Like L (.markLoaded n) (.markLoaded o)
  | isLoaded {n o : String} (h : normalize n = normalize o) :
      Request.Like L (.isLoaded n) (.isLoaded o)
  | markInvalid {n o : String} (h : normalize n = normalize o) :
      Request.Like L (.markInvalid n) (.markInvalid o)
  | isInvalid {n o : String} (h : normalize n = normalize o) :
      Request.Like L (.isInvalid n) (.isInvalid o)
  | applyChain (bytes : Bytes) {n o : String} (h : normalize n = normalize o) :
      Request.Like L (.applyChain bytes n) (.applyChain bytes o)
  | holdChain : Request.Like L .holdChain .holdChain
  | applyHeld (bytes : Bytes) {n o : String} (h : normalize n = normalize o) :
      Request.Like L (.applyHeld bytes n) (.applyHeld bytes o)
  | transformArchive (folder : Folder) (file : String) :
      Request.Like L (.transformArchive folder file) (.transformArchive folder file)
  | config : Request.Like L .config .config
  | describe : Request.Like L .describe .describe

/-- Asked for alike things, the hosts track each other. The last two laws are about routines
of which only the second one looks into the memory before it replaces it. -/
structure Host.InStep (L : Likeness σ τ) (S : α → β → Prop) (host : Host σ (StateT α Option))
    (host' : Host τ (StateT β Option)) : Prop where
  calling : ∀ {t u}, L.transformer t u → ∀ context c,
    Tracks S Eq (host.calling t context c) (host'.calling u context c)
  called : ∀ {t u}, L.transformer t u → Tracks S Eq (host.called t) (host'.called u)
  load : ∀ {n o}, normalize n = normalize o → Tracks S Eq (host.load n) (host'.load o)
  ask : ∀ {request request'}, Request.Like L request request' →
    Tracks S Eq (host.ask request) (host'.ask request')
  fetch : Tracks S L.memory host.fetch host'.fetch
  store : ∀ {m n}, L.memory m n → Tracks S Eq (host.store m) (host'.store n)
  renew : ∀ {f : τ → τ}, (∀ m n, L.memory m n → L.memory m (f n)) →
    Tracks S Eq (pure ()) (host'.fetch >>= fun n => host'.store (f n))
  replace : ∀ {m : σ} {f : τ → τ}, (∀ n, L.memory m (f n)) →
    Tracks S Eq (host.store m) (host'.fetch >>= fun n => host'.store (f n))

/-- The routines stay in step as long as those who run them do. -/
def Routine.InStep (L : Likeness σ τ) (r : Routine σ) (r' : Routine τ) : Prop :=
  ∀ (α β : Type) (S : α → β → Prop) (host : Host σ (StateT α Option))
    (host' : Host τ (StateT β Option)), Host.InStep L S host host' →
      Tracks S Eq (r.run host) (r'.run host')

/-- What is alike does alike things. -/
structure Likeness.Sound (L : Likeness σ τ) : Prop where
  name : ∀ {t u}, L.transformer t u → t.name = u.name
  isDelegationExcluded : ∀ {t u}, L.transformer t u →
    t.isDelegationExcluded = u.isDelegationExcluded
  remapper : ∀ {t u}, L.transformer t u →
    Option.Rel (fun f g => ∀ text, Agrees L.memory (f text) (g text)) t.remapper u.remapper
  transform : ∀ {t u}, L.transformer t u → ∀ context c,
    (t.transform context c).InStep L (u.transform context c)
  find : ∀ {s r}, L.source s r → ∀ name, Agrees L.memory (s.find name) (r.find name)

/-! ## Chains -/

section Chains

variable {L : Likeness σ τ} {S : α → β → Prop} {host : Host σ (StateT α Option)}
  {host' : Host τ (StateT β Option)} {t : Transformer σ} {u : Transformer τ}
  {ts : List (Transformer σ)} {us : List (Transformer τ)}

theorem conclude_congr (h : t.name = u.name) (options : WriterOptions) (name : ClassName)
    (outcome : Outcome) : t.conclude options name outcome = u.conclude options name outcome := by
  unfold Transformer.conclude Transformer.blame
  rw [h]

variable (hL : L.Sound) (hhost : host.InStep L S host')

include hL hhost

theorem tracks_call (h : L.transformer t u) (context : Context) (c : Class) :
    Tracks S Eq (t.call host context c) (u.call host' context c) := by
  refine (hhost.calling h context c).then fun _ => ?_
  refine (hL.transform h context c _ _ _ _ _ hhost).then fun outcome => ?_
  exact (hhost.called h).then fun _ => tracks_pure rfl

theorem tracks_apply (h : L.transformer t u) (options : WriterOptions) (context : Context)
    (bytes : Bytes) :
    Tracks S Eq (t.apply host options context bytes) (u.apply host' options context bytes) := by
  unfold Transformer.apply
  split
  · exact tracks_pure rfl
  · refine (tracks_call hL hhost h context _).then fun outcome => ?_
    exact tracks_pure (conclude_congr (hL.name h) options context.name outcome)

theorem tracks_applyAll (h : List.Forall₂ L.transformer ts us) (options : WriterOptions)
    (context : Context) (bytes : Bytes) :
    Tracks S Eq (Transformer.applyAll host options context ts bytes)
      (Transformer.applyAll host' options context us bytes) := by
  induction h generalizing bytes with
  | nil => exact tracks_pure rfl
  | cons h _ ih =>
      refine (tracks_apply hL hhost h options context bytes).then fun applied => ?_
      split
      · exact ih _
      · exact tracks_pure rfl

theorem tracks_applyWith (h : List.Forall₂ L.transformer ts us) (options : WriterOptions)
    (exclusions : Option Exclusions) (bytes : Bytes) (name : ClassName) :
    Tracks S Eq (Chain.applyWith host ⟨ts, options, exclusions⟩ bytes name)
      (Chain.applyWith host' ⟨us, options, exclusions⟩ bytes name) := by
  have hexempt : Chain.isExempt ⟨ts, options, exclusions⟩ name =
      Chain.isExempt ⟨us, options, exclusions⟩ name := by
    cases h <;> rfl
  unfold Chain.applyWith
  rw [hexempt]
  split
  · exact tracks_pure rfl
  · exact tracks_applyAll hL hhost h options _ bytes

end Chains

/-! ## Archives -/

section Archives

variable {S : α → β → Prop} {apply : Application (StateT α Option)}
  {apply' : Application (StateT β Option)}
  (h : ∀ bytes name, Tracks S Eq (apply bytes name) (apply' bytes name))

include h

theorem tracks_transform_entry (e : Entry) :
    Tracks S Eq (e.transform apply).run (e.transform apply').run := by
  unfold Entry.transform
  split
  · exact tracks_pure rfl
  · split
    · exact tracks_pure rfl
    · refine (tracks_lift (h _ _)).then_run fun applied => ?_
      split
      · exact tracks_pure rfl
      · exact tracks_pure rfl
      · split
        · exact tracks_pure rfl
        · exact tracks_pure rfl

theorem tracks_mapM_entries (es : List Entry) :
    Tracks S Eq (es.mapM (Entry.transform apply)).run (es.mapM (Entry.transform apply')).run := by
  induction es with
  | nil => exact tracks_pure rfl
  | cons e es ih =>
      rw [List.mapM_cons, List.mapM_cons]
      refine Tracks.then_run (tracks_transform_entry h e) fun fate => ?_
      exact Tracks.then_run ih fun fates => tracks_pure rfl

theorem tracks_transform_container (c : Container) :
    Tracks S Eq (c.transform apply).run (c.transform apply').run := by
  unfold Container.transform
  split
  · exact tracks_pure rfl
  · exact Tracks.then_run (tracks_mapM_entries h _) fun fates => tracks_pure rfl

theorem tracks_transform_folder (f : Folder) (file : String) :
    Tracks S Eq (f.transform apply file) (f.transform apply' file) := by
  unfold Folder.transform Folder.transformOn
  split
  · exact tracks_pure rfl
  · refine (tracks_transform_container h _).then fun result => ?_
    split
    · exact tracks_pure rfl
    · split
      · exact tracks_pure rfl
      · exact tracks_pure rfl

end Archives

end ClassLoom
