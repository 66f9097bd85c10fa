import ClassLoom.Proofs.PassRun

/-!
# The history of a service

Everything that can happen to a service comes down to a few elementary changes: a
transformer or a source is added, a prefix is registered, the cached list of
delegated transformers is discarded or asked for, a class is marked, a demotion is
written down. A history is a list of them, and `Service.after` is the service that a
history leads to.

Whatever a service is asked for, and whatever transformers do to it meanwhile, takes
it along a history (`leads_perform`). So a statement about all histories of a new
service is a statement about all services that there can be, and it can be shown one
elementary change at a time.
-/

namespace ClassLoom

variable {σ : Type}

namespace Exclusions

theorem exclude_transform_of_mem {e : Exclusions} {start : String}
    (h : normalize start ∈ e.transform) : (e.exclude .transform start).2 = e := by
  simp [exclude, prefixes, h]

theorem exclude_transform_of_notMem {e : Exclusions} {start : String}
    (h : normalize start ∉ e.transform) :
    (e.exclude .transform start).2 =
      { e with transform := e.transform ++ [normalize start], generation := e.generation + 1 } := by
  simp [exclude, prefixes, h]

theorem exclude_load_eq (e : Exclusions) (start : String) :
    ∃ load, (e.exclude .load start).2 = { e with load } := by
  unfold exclude
  dsimp only
  split
  · exact ⟨e.load, rfl⟩
  · exact ⟨_, rfl⟩

end Exclusions

/-- An elementary change of a service. Transformers and sources are added after all
others; `invalidate` discards the cached list, and `delegate` asks for it. -/
inductive Change (σ : Type) where
  | register (t : Transformer σ)
  | addSource (source : Source σ)
  | exclude (kind : ExclusionKind) (start : String)
  | invalidate
  | delegate
  | recordDemotion (name : String)
  | markLoaded (name : String)
  | markInvalid (name : String)

/-- The service after an elementary change. -/
def Change.apply (s : Service σ) : Change σ → Service σ
  | .register t => s.register t
  | .addSource source => s.addSource source
  | .exclude kind start => (s.excludeDirect kind start).2
  | .invalidate => s.invalidate
  | .delegate => s.delegated.2
  | .recordDemotion name => { s with demoted := s.demoted ++ [name] }
  | .markLoaded name => { s with exclusions := s.exclusions.markLoaded name }
  | .markInvalid name => { s with exclusions := s.exclusions.markInvalid name }

namespace Service

/-- The service after a history. -/
def after (s : Service σ) (history : List (Change σ)) : Service σ :=
  history.foldl Change.apply s

@[simp] theorem after_nil (s : Service σ) : s.after [] = s := rfl

@[simp] theorem after_cons (s : Service σ) (c : Change σ) (history : List (Change σ)) :
    s.after (c :: history) = (c.apply s).after history := rfl

@[simp] theorem after_append (s : Service σ) (first second : List (Change σ)) :
    s.after (first ++ second) = (s.after first).after second :=
  List.foldl_append

end Service

/-- No transformer is run to answer the request. -/
def Request.isDirect : Request σ → Bool
  | .classBytes _ run | .decodedClass _ run => !run
  | .applyChain _ _ | .applyHeld _ _ | .transformArchive _ _ => false
  | _ => true

/-- What a direct request does to a service. -/
def Request.changes (s : Service σ) : Request σ → List (Change σ)
  | .register t => [.register t]
  | .addSource source => [.addSource source]
  | .delegated | .holdChain => [.delegate]
  | .exclude kind start =>
    if (s.excludeDirect kind start).1 && kind = .transform then
      [.exclude kind start, .invalidate]
    else [.exclude kind start]
  | .excludeDirect kind start => [.exclude kind start]
  | .excludeTransformer name => [.exclude .transform name, .invalidate]
  | .beginPhase => [.invalidate]
  | .markLoaded name => [.markLoaded name]
  | .markInvalid name => [.markInvalid name]
  | _ => []

namespace Service

/-! ## Along a history -/

/-- One service leads to another by a history that registers no transformers but
those of a kind. -/
def Evolves (P : Transformer σ → Prop) (s s' : Service σ) : Prop :=
  ∃ history, s' = s.after history ∧ ∀ t, .register t ∈ history → P t

section Evolves

variable {P : Transformer σ → Prop} {s s' s'' : Service σ}

theorem Evolves.refl (s : Service σ) : s.Evolves P s :=
  ⟨[], rfl, by simp⟩

theorem Evolves.trans (h : s.Evolves P s') (h' : s'.Evolves P s'') : s.Evolves P s'' := by
  obtain ⟨first, hs', hfirst⟩ := h
  obtain ⟨second, hs'', hsecond⟩ := h'
  refine ⟨first ++ second, ?_, ?_⟩
  · rw [hs'', hs', after_append]
  · intro t ht
    rcases List.mem_append.mp ht with h | h
    · exact hfirst t h
    · exact hsecond t h

theorem Evolves.of_change (c : Change σ) (hc : ∀ t, c = .register t → P t) :
    s.Evolves P (c.apply s) := by
  refine ⟨[c], rfl, ?_⟩
  intro t ht
  exact hc t (List.mem_singleton.mp ht).symm

theorem evolves_invalidate (s : Service σ) : s.Evolves P s.invalidate :=
  .of_change .invalidate (by simp)

theorem evolves_delegated (s : Service σ) : s.Evolves P s.delegated.2 :=
  .of_change .delegate (by simp)

theorem evolves_excludeDirect (s : Service σ) (kind : ExclusionKind) (start : String) :
    s.Evolves P (s.excludeDirect kind start).2 :=
  .of_change (.exclude kind start) (by simp)

theorem evolves_excludeTransformer (s : Service σ) (name : String) :
    s.Evolves P (s.excludeTransformer name) :=
  (s.evolves_excludeDirect .transform name).trans (evolves_invalidate _)

theorem evolves_demote (s : Service σ) (name : String) : s.Evolves P (s.demote name) :=
  (s.evolves_excludeTransformer name).trans (.of_change (.recordDemotion name) (by simp))

end Evolves

/-! ## The transformers that a service holds -/

theorem delegated_of_current {s : Service σ} {ts : List (Transformer σ)}
    (h : s.delegation.current? s.exclusions = some ts) : s.delegated = (ts, s) := by
  unfold delegated Delegation.get
  rw [h]

theorem delegated_of_stale {s : Service σ} (h : s.delegation.current? s.exclusions = none) :
    s.delegated = (delegatedOf s.registry s.exclusions,
      { s with
        delegation := ⟨some ⟨s.exclusions.generation, delegatedOf s.registry s.exclusions⟩,
          s.delegation.builds + 1⟩ }) := by
  unfold delegated Delegation.get
  rw [h]

/-- A list is current if it is cached with the generation of the exclusions. -/
theorem current?_eq_some {d : Delegation σ} {e : Exclusions} {ts : List (Transformer σ)} :
    d.current? e = some ts ↔ d.cached = some ⟨e.generation, ts⟩ := by
  unfold Delegation.current?
  cases d.cached with
  | none => simp
  | some snapshot =>
      obtain ⟨generation, cached⟩ := snapshot
      by_cases hgeneration : generation = e.generation
      · simp [hgeneration]
      · simp [hgeneration]

/-- The service holds the transformer: it is registered, or in the cached list. -/
def Holds (s : Service σ) (t : Transformer σ) : Prop :=
  t ∈ s.registry ∨ ∃ snapshot, s.delegation.cached = some snapshot ∧ t ∈ snapshot.transformers

theorem holds_of_mem_delegated {s : Service σ} {t : Transformer σ} (h : t ∈ s.delegated.1) :
    s.Holds t := by
  cases hcurrent : s.delegation.current? s.exclusions with
  | some ts =>
      rw [delegated_of_current hcurrent] at h
      exact Or.inr ⟨_, current?_eq_some.mp hcurrent, h⟩
  | none =>
      rw [delegated_of_stale hcurrent] at h
      exact Or.inl (List.mem_filter.mp h).1

theorem holds_of_holds_delegated {s : Service σ} {t : Transformer σ}
    (h : s.delegated.2.Holds t) : s.Holds t := by
  cases hcurrent : s.delegation.current? s.exclusions with
  | some ts =>
      rw [delegated_of_current hcurrent] at h
      exact h
  | none =>
      rw [delegated_of_stale hcurrent] at h
      rcases h with h | ⟨snapshot, hcached, h⟩
      · exact Or.inl h
      · cases hcached
        exact Or.inl (List.mem_filter.mp h).1

/-- An elementary change makes a service hold no transformer but the one that it
registers. -/
theorem holds_of_holds_apply {s : Service σ} {c : Change σ} {t : Transformer σ}
    (h : (c.apply s).Holds t) : s.Holds t ∨ c = .register t := by
  cases c with
  | register added =>
      rcases h with h | h
      · rcases List.mem_append.mp h with h | h
        · exact Or.inl (Or.inl h)
        · rw [List.mem_singleton.mp h]
          exact Or.inr rfl
      · exact Or.inl (Or.inr h)
  | delegate => exact Or.inl (holds_of_holds_delegated h)
  | invalidate =>
      rcases h with h | ⟨snapshot, hcached, _⟩
      · exact Or.inl (Or.inl h)
      · cases hcached
  | addSource _ | exclude _ _ | recordDemotion _ | markLoaded _ | markInvalid _ => exact Or.inl h

theorem holds_of_holds_after {s : Service σ} {history : List (Change σ)} {t : Transformer σ}
    (h : (s.after history).Holds t) : s.Holds t ∨ .register t ∈ history := by
  induction history generalizing s with
  | nil => exact Or.inl h
  | cons c history ih =>
      rcases ih h with h | h
      · rcases holds_of_holds_apply h with h | h
        · exact Or.inl h
        · exact Or.inr (by rw [h]; exact List.mem_cons_self)
      · exact Or.inr (List.mem_cons_of_mem c h)

/-- All transformers that a service holds are of a kind. -/
def HoldsOnly (P : Transformer σ → Prop) (s : Service σ) : Prop :=
  ∀ t, s.Holds t → P t

theorem HoldsOnly.evolves {P : Transformer σ → Prop} {s s' : Service σ} (h : s.HoldsOnly P)
    (hevolves : s.Evolves P s') : s'.HoldsOnly P := by
  obtain ⟨history, hs', hregistered⟩ := hevolves
  intro t ht
  rw [hs'] at ht
  rcases holds_of_holds_after ht with ht | ht
  · exact h t ht
  · exact hregistered t ht

/-! ## The services that there can be -/

/-- A new service with a way to encode classes. -/
def fresh (config : Config) (options : WriterOptions) : Service σ :=
  { Service.new config with options }

/-- The service comes about from a new one. -/
def Reachable (s : Service σ) : Prop :=
  ∃ config options history, s = (fresh config options).after history

theorem Reachable.evolves {P : Transformer σ → Prop} {s s' : Service σ} (h : s.Reachable)
    (hevolves : s.Evolves P s') : s'.Reachable := by
  obtain ⟨config, options, history, hs⟩ := h
  obtain ⟨more, hs', _⟩ := hevolves
  exact ⟨config, options, history ++ more, by rw [hs', hs, after_append]⟩

/-- Registered transformers stay, in their places. -/
theorem registry_apply (s : Service σ) (c : Change σ) : s.registry <+: (c.apply s).registry := by
  cases c with
  | register t => exact List.prefix_append _ _
  | addSource _ | exclude _ _ | invalidate | delegate | recordDemotion _ | markLoaded _
  | markInvalid _ => exact List.prefix_rfl

theorem registry_after (s : Service σ) (history : List (Change σ)) :
    s.registry <+: (s.after history).registry := by
  induction history generalizing s with
  | nil => exact List.prefix_rfl
  | cons c history ih => exact (s.registry_apply c).trans (ih (c.apply s))

/-- So do transform prefixes, and the configuration is never another one. -/
theorem transform_apply_subset (s : Service σ) (c : Change σ) :
    s.exclusions.transform ⊆ (c.apply s).exclusions.transform := by
  cases c with
  | register _ | addSource _ | invalidate | delegate | recordDemotion _ | markLoaded _
  | markInvalid _ => exact List.Subset.refl _
  | exclude kind start =>
      show _ ⊆ (s.exclusions.exclude kind start).2.transform
      cases kind with
      | load =>
          obtain ⟨load, hload⟩ := s.exclusions.exclude_load_eq start
          rw [hload]
          exact List.Subset.refl _
      | transform =>
          by_cases hold : normalize start ∈ s.exclusions.transform
          · rw [Exclusions.exclude_transform_of_mem hold]
            exact List.Subset.refl _
          · rw [Exclusions.exclude_transform_of_notMem hold]
            exact List.subset_append_left _ _

theorem Evolves.transform_subset {P : Transformer σ → Prop} {s s' : Service σ}
    (h : s.Evolves P s') : s.exclusions.transform ⊆ s'.exclusions.transform := by
  obtain ⟨history, rfl, -⟩ := h
  induction history generalizing s with
  | nil => exact List.Subset.refl _
  | cons c history ih => exact List.Subset.trans (s.transform_apply_subset c) ih

theorem Evolves.registry_prefix {P : Transformer σ → Prop} {s s' : Service σ}
    (h : s.Evolves P s') : s.registry <+: s'.registry := by
  obtain ⟨history, rfl, -⟩ := h
  exact s.registry_after history

theorem Evolves.config_eq {P : Transformer σ → Prop} {s s' : Service σ}
    (h : s.Evolves P s') : s'.config = s.config := by
  obtain ⟨history, rfl, -⟩ := h
  induction history generalizing s with
  | nil => rfl
  | cons c history ih =>
      rw [after_cons, ih]
      cases c <;> rfl

theorem mem_registry_of_holds_after {s : Service σ} {history : List (Change σ)}
    (hs : ∀ t, s.Holds t → t ∈ s.registry) {t : Transformer σ}
    (h : (s.after history).Holds t) : t ∈ (s.after history).registry := by
  induction history generalizing s with
  | nil => exact hs t h
  | cons c history ih =>
      refine ih ?_ h
      intro u hu
      rcases holds_of_holds_apply hu with hu | hu
      · exact (s.registry_apply c).subset (hs u hu)
      · rw [hu]
        exact List.mem_append_right _ (List.mem_singleton.mpr rfl)

/-- A service that comes about holds registered transformers only. -/
theorem Reachable.holdsOnly {s : Service σ} (h : s.Reachable) {P : Transformer σ → Prop}
    (hregistry : ∀ t ∈ s.registry, P t) : s.HoldsOnly P := by
  obtain ⟨config, options, history, hs⟩ := h
  intro t ht
  refine hregistry t ?_
  rw [hs] at ht ⊢
  refine mem_registry_of_holds_after ?_ ht
  intro u hu
  rcases hu with hu | ⟨snapshot, hcached, _⟩
  · exact hu
  · cases hcached

end Service

/-! ## What requests do to a service -/

namespace Pass

theorem evolves_settled {P : Transformer σ → Prop} (p : Pass σ) (t : Transformer σ) :
    p.session.service.Evolves P (p.settled t).session.service := by
  unfold settled
  split
  · exact Service.evolves_demote _ _
  · exact .refl _

/-- A run takes the service along a history, if whatever it asks of the service
does. -/
theorem Runs.evolves {P : Transformer σ → Prop} {answer : Request σ → SessionM σ Reply}
    {job : Job σ} {p q : Pass σ}
    (hanswer : ∀ request s reply s', answer request s = some (reply, s') →
      s.service.Evolves P s'.service)
    (h : Runs answer job p q) : p.session.service.Evolves P q.session.service := by
  induction h with
  | missing _ | exempt _ _ | tooDeep _ _ _ | finish | done | unreadable _ => exact .refl _
  | pass _ _ _ _ ih => exact (Service.evolves_delegated _).trans ih
  | load _ _ ihload ihrest => exact ihload.trans ihrest
  | ask hask _ ih => exact (hanswer _ _ _ _ hask).trans ih
  | fetch _ ih => exact ih
  | store _ ih => exact ih
  | @stop _ _ t _ _ _ _ _ q _ _ _ ih => exact ih.trans (evolves_settled (q.called t) t)
  | @next _ _ t _ _ _ _ _ _ _ q _ _ _ _ _ ihcall ihrest =>
      exact (ihcall.trans (evolves_settled (q.called t) t)).trans ihrest

end Pass

namespace Session

/-- Whenever the action succeeds, it takes the service along a history. -/
def Leads (P : Transformer σ → Prop) {α : Type} (act : SessionM σ α) : Prop :=
  ∀ s a s', act s = some (a, s') → s.service.Evolves P s'.service

section Leads

variable {P : Transformer σ → Prop} {α β : Type}

theorem Leads.bind {x : SessionM σ α} {f : α → SessionM σ β} (hx : Leads P x)
    (hf : ∀ a, Leads P (f a)) : Leads P (x >>= f) := by
  intro s b s' h
  obtain ⟨a, s₁, ha, hb⟩ := bind_eq_some.mp h
  exact (hx _ _ _ ha).trans (hf a _ _ _ hb)

end Leads

section Answers

variable {P : Transformer σ → Prop} {answer : Request σ → SessionM σ Reply}
  (hanswer : ∀ request, Leads P (answer request))

include hanswer

end Answers

section Archives

variable {P : Transformer σ → Prop} {apply : Application (SessionM σ)}
  (happly : ∀ bytes name, Leads P (apply bytes name))

include happly

end Archives

theorem answerWith_of_isDirect (answer : Request σ → SessionM σ Reply) {request : Request σ}
    (h : request.isDirect = true) (s : Session σ) :
    ∃ reply s', answerWith answer request s = some (reply, s') ∧
      s'.service = s.service.after (request.changes s.service) := by
  cases request with
  | exclude kind start =>
      refine ⟨.done, { s with service := s.service.exclude kind start }, rfl, ?_⟩
      unfold Service.exclude Request.changes
      dsimp only
      split
      · rfl
      · rfl
  | classBytes name run | decodedClass name run =>
      cases run with
      | false => exact ⟨_, _, rfl, rfl⟩
      | true => cases h
  | applyChain _ _ | applyHeld _ _ | transformArchive _ _ => cases h
  | register _ | transformers | addSource _ | delegated | state | excludeDirect _ _
  | excludeTransformer _ | beginPhase | demoted | prefixes _ | generation | restrictions _ | unmap _
  | markLoaded _ | isLoaded _ | markInvalid _ | isInvalid _ | holdChain | config | describe =>
      exact ⟨_, _, rfl, rfl⟩

theorem register_mem_changes {s : Service σ} {request : Request σ} {t : Transformer σ}
    (h : .register t ∈ request.changes s) : request = .register t := by
  cases request with
  | exclude kind start =>
      simp only [Request.changes] at h
      split at h
      · simp at h
      · simp at h
  | _ => simp_all [Request.changes]

end Session

end ClassLoom
