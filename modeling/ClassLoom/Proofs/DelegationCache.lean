import ClassLoom.Proofs.ServiceHistory
import Mathlib.Data.List.Induction

/-!
# The cached list of delegated transformers

The list of delegated transformers is built when it is asked for and then kept. Two
mechanisms make it go away: the cache is discarded, or the exclusions have moved on
to another generation than the one that the list was built from. Transform prefixes
arrive on several ways, and only some of them discard the cache; registering a
transformer does neither.

What makes this right is one fact about a step: a change leaves a current list
current unless it discards the cache or adds a new transform prefix, and no change
but a rebuild makes a list current (`current_apply`). The second half needs that a
cached list is never from a generation to come (`Timely`), as otherwise a new prefix
could bring an old list back. So along a history the current list is that of the last
rebuild, and as nothing has been excluded since, filtering by the prefixes of then is
filtering by the prefixes of now.
-/

namespace ClassLoom

variable {σ : Type}

namespace Service

/-- Asking for the delegated transformers builds a list. -/
def Rebuilds (s : Service σ) : Prop :=
  s.delegated.2.delegation.builds = s.delegation.builds + 1

/-- A history from `s` falls apart into what was before the last rebuild, the access
that rebuilt, and what has been since. -/
structure LastRebuild (s : Service σ) (history before since : List (Change σ)) : Prop where
  splits : history = before ++ .delegate :: since
  rebuilds : (s.after before).Rebuilds
  last : (s.after history).delegation.builds = (s.after before).delegation.builds + 1

end Service

/-- The change adds a new transform prefix or discards the cached list. -/
def Change.Outdates (s : Service σ) : Change σ → Prop
  | .invalidate => True
  | .exclude .transform start => normalize start ∉ s.exclusions.transform
  | _ => False

namespace Service

/-- Nothing along a history from `s` outdates a list. -/
def Undisturbed (s : Service σ) : List (Change σ) → Prop
  | [] => True
  | c :: history => ¬ c.Outdates s ∧ (c.apply s).Undisturbed history

theorem undisturbed_append {s : Service σ} {first second : List (Change σ)} :
    s.Undisturbed (first ++ second) ↔
      s.Undisturbed first ∧ (s.after first).Undisturbed second := by
  induction first generalizing s with
  | nil => simp [Undisturbed]
  | cons c first ih => simp [Undisturbed, ih, and_assoc]

/-! ## Where the list stands -/

/-- The current list, if there is one. -/
def current? (s : Service σ) : Option (List (Transformer σ)) :=
  s.delegation.current? s.exclusions

theorem rebuilds_iff {s : Service σ} : s.Rebuilds ↔ s.current? = none := by
  unfold Rebuilds
  cases hcurrent : s.current? with
  | some ts => simp [delegated_of_current hcurrent]
  | none => simp [delegated_of_stale hcurrent]

/-- After the list has been asked for, it is current. -/
theorem current?_delegated (s : Service σ) : s.delegated.2.current? = some s.delegated.1 := by
  cases hcurrent : s.current? with
  | some ts => rw [delegated_of_current hcurrent, hcurrent]
  | none =>
      rw [delegated_of_stale hcurrent]
      exact current?_eq_some.mpr rfl

/-- No cached list is from a generation to come. -/
def Timely (s : Service σ) : Prop :=
  ∀ snapshot, s.delegation.cached = some snapshot →
    snapshot.generation ≤ s.exclusions.generation

/-! ## One step -/

/-- A list is current after a change if the change built it, or if it was current
before and the change does not outdate it. -/
theorem current?_apply {s : Service σ} (htimely : s.Timely) {c : Change σ}
    {ts : List (Transformer σ)} :
    (c.apply s).current? = some ts ↔
      (c = .delegate ∧ s.Rebuilds ∧ ts = s.delegated.1) ∨
        (s.current? = some ts ∧ ¬ c.Outdates s) := by
  cases c with
  | register _ | addSource _ | recordDemotion _ | markLoaded _ | markInvalid _ =>
      show s.current? = some ts ↔ _
      simp [Change.Outdates]
  | invalidate => simp [Change.apply, Change.Outdates, invalidate, current?, Delegation.invalidate,
      Delegation.current?]
  | delegate =>
      rw [show (Change.delegate.apply s).current? = _ from current?_delegated s, rebuilds_iff]
      cases hcurrent : s.current? with
      | some us => simp [delegated_of_current hcurrent, Change.Outdates]
      | none => simp [eq_comm]
  | exclude kind start =>
      cases kind with
      | load =>
          obtain ⟨load, hload⟩ := s.exclusions.exclude_load_eq start
          have hsame : ((Change.exclude .load start).apply s).current? = s.current? := by
            show s.delegation.current? (s.exclusions.exclude .load start).2 = _
            rw [hload]
            rfl
          simp [Change.Outdates, hsame]
      | transform =>
          have hcurrent : ((Change.exclude .transform start).apply s).current? =
              s.delegation.current? (s.exclusions.exclude .transform start).2 := rfl
          by_cases hold : normalize start ∈ s.exclusions.transform
          · rw [hcurrent, Exclusions.exclude_transform_of_mem hold]
            simp [Change.Outdates, hold, current?]
          · have hstale : ((Change.exclude .transform start).apply s).current? ≠ some ts := by
              intro h
              rw [hcurrent, Exclusions.exclude_transform_of_notMem hold, current?_eq_some] at h
              have hle : s.exclusions.generation + 1 ≤ s.exclusions.generation := htimely _ h
              omega
            simp [Change.Outdates, hold, hstale]

theorem timely_apply {s : Service σ} (h : s.Timely) (c : Change σ) : (c.apply s).Timely := by
  cases c with
  | register _ | addSource _ | recordDemotion _ | markLoaded _ | markInvalid _ => exact h
  | invalidate => simp [Change.apply, invalidate, Timely, Delegation.invalidate]
  | delegate =>
      show s.delegated.2.Timely
      cases hcurrent : s.current? with
      | some ts => rwa [delegated_of_current hcurrent]
      | none => simp [delegated_of_stale hcurrent, Timely]
  | exclude kind start =>
      intro snapshot hcached
      have hle := h snapshot hcached
      cases kind with
      | load =>
          obtain ⟨load, hload⟩ := s.exclusions.exclude_load_eq start
          show _ ≤ (s.exclusions.exclude .load start).2.generation
          rw [hload]
          exact hle
      | transform =>
          show _ ≤ (s.exclusions.exclude .transform start).2.generation
          by_cases hold : normalize start ∈ s.exclusions.transform
          · rw [Exclusions.exclude_transform_of_mem hold]
            exact hle
          · rw [Exclusions.exclude_transform_of_notMem hold]
            exact Nat.le_succ_of_le hle

theorem builds_apply (s : Service σ) (c : Change σ) :
    (c.apply s).delegation.builds = s.delegation.builds ∨ (c = .delegate ∧ s.Rebuilds) := by
  cases c with
  | delegate =>
      cases hcurrent : s.current? with
      | some ts =>
          left
          show s.delegated.2.delegation.builds = _
          rw [delegated_of_current hcurrent]
      | none => exact Or.inr ⟨rfl, rebuilds_iff.mpr hcurrent⟩
  | register _ | addSource _ | exclude _ _ | invalidate | recordDemotion _ | markLoaded _
  | markInvalid _ => exact Or.inl rfl

theorem transform_apply {s : Service σ} {c : Change σ} (h : ¬ c.Outdates s) :
    (c.apply s).exclusions.transform = s.exclusions.transform := by
  cases c with
  | delegate | register _ | addSource _ | invalidate | recordDemotion _ | markLoaded _
  | markInvalid _ => rfl
  | exclude kind start =>
      cases kind with
      | load =>
          obtain ⟨load, hload⟩ := s.exclusions.exclude_load_eq start
          show (s.exclusions.exclude .load start).2.transform = _
          rw [hload]
      | transform =>
          have hold : normalize start ∈ s.exclusions.transform := by
            simpa [Change.Outdates] using h
          show (s.exclusions.exclude .transform start).2.transform = _
          rw [Exclusions.exclude_transform_of_mem hold]

/-! ## Along a history -/

theorem timely_after {s : Service σ} (h : s.Timely) (history : List (Change σ)) :
    (s.after history).Timely := by
  induction history generalizing s with
  | nil => exact h
  | cons c history ih => exact ih (timely_apply h c)

theorem transform_after {s : Service σ} {history : List (Change σ)} (h : s.Undisturbed history) :
    (s.after history).exclusions.transform = s.exclusions.transform := by
  induction history generalizing s with
  | nil => rfl
  | cons c history ih => rw [after_cons, ih h.2, transform_apply h.1]

/-- A current list stays current as long as nothing outdates it. -/
theorem current?_after {s : Service σ} (htimely : s.Timely) {ts : List (Transformer σ)}
    (hcurrent : s.current? = some ts) {history : List (Change σ)} (h : s.Undisturbed history) :
    (s.after history).current? = some ts := by
  induction history generalizing s with
  | nil => exact hcurrent
  | cons c history ih =>
      have hstep : (c.apply s).current? = some ts :=
        (current?_apply htimely).mpr (Or.inr ⟨hcurrent, h.1⟩)
      exact ih (timely_apply htimely c) hstep h.2

/-- A list that is current was built by the last rebuild, and nothing has outdated it
since. -/
theorem exists_lastRebuild {s : Service σ} (htimely : s.Timely) (hunbuilt : s.current? = none)
    {history : List (Change σ)} {ts : List (Transformer σ)}
    (h : (s.after history).current? = some ts) :
    ∃ before since, s.LastRebuild history before since ∧
      (s.after (before ++ [.delegate])).Undisturbed since := by
  induction history using List.reverseRecOn generalizing ts with
  | nil => simp [hunbuilt] at h
  | append_singleton history c ih =>
      rw [after_append] at h
      rcases (current?_apply (timely_after htimely history)).mp h with
        ⟨rfl, hrebuilds, -⟩ | ⟨hcurrent, hkeeps⟩
      · have hcount : ((s.after history).delegated.2).delegation.builds = _ := hrebuilds
        exact ⟨history, [], ⟨rfl, hrebuilds, by rw [after_append]; exact hcount⟩, trivial⟩
      · obtain ⟨before, since, hlast, hsince⟩ := ih hcurrent
        have hsplit : (s.after (before ++ [.delegate])).after since = s.after history := by
          rw [← after_append, hlast.splits]
          simp
        refine ⟨before, since ++ [c], ⟨?_, hlast.rebuilds, ?_⟩, ?_⟩
        · simp [hlast.splits]
        · have hquiet : (c.apply (s.after history)).delegation.builds =
              (s.after history).delegation.builds := by
            rcases (s.after history).builds_apply c with hsame | ⟨-, hrebuilds⟩
            · exact hsame
            · rw [rebuilds_iff, hcurrent] at hrebuilds
              cases hrebuilds
          rw [after_append, after_cons, after_nil, hquiet, hlast.last]
        · rw [undisturbed_append, hsplit]
          exact ⟨hsince, hkeeps, trivial⟩

/-- The list of the last rebuild is current if nothing has outdated it. -/
theorem LastRebuild.current? {s : Service σ} {history before since : List (Change σ)}
    (h : s.LastRebuild history before since) (htimely : s.Timely)
    (hsince : (s.after (before ++ [.delegate])).Undisturbed since) :
    (s.after history).current? = some (s.after before).delegated.1 := by
  have hbuilt : (s.after (before ++ [.delegate])).current? =
      some (s.after before).delegated.1 := by
    rw [after_append]
    exact current?_delegated _
  have hkept := current?_after (timely_after htimely _) hbuilt hsince
  rw [← after_append] at hkept
  rw [h.splits]
  simpa using hkept

/-! ## The list and the registry -/

/-- The list that a rebuild gives is, as long as nothing outdates it, the filter by the
prefixes that are registered by then of the transformers that were registered at the
rebuild. -/
theorem delegated_eq_filter {s : Service σ} (hrebuilds : s.Rebuilds) {since : List (Change σ)}
    (hsince : s.delegated.2.Undisturbed since) :
    s.delegated.1 = ((s.delegated.2.after since).registry.take s.registry.length).filter
      (s.delegated.2.after since).exclusions.admits := by
  have hstale := delegated_of_stale (rebuilds_iff.mp hrebuilds)
  have hregistry : s.delegated.2.registry = s.registry := by rw [hstale]
  have hexclusions : s.delegated.2.exclusions = s.exclusions := by rw [hstale]
  have htake : (s.delegated.2.after since).registry.take s.registry.length = s.registry := by
    have hgrown := s.delegated.2.registry_after since
    rw [hregistry] at hgrown
    exact (List.prefix_iff_eq_take.mp hgrown).symm
  have hadmits : ((s.delegated.2.after since).exclusions.admits : Transformer σ → Bool) =
      s.exclusions.admits := by
    funext t
    have htransform := transform_after hsince
    rw [hexclusions] at htransform
    simp [Exclusions.admits, Exclusions.isTransformExcluded, Exclusions.isExcluded,
      Exclusions.prefixes, htransform]
  rw [htake, hadmits, hstale]
  rfl

/-- What the last rebuild left is given again, and nothing is built. -/
theorem LastRebuild.delegated_eq {s : Service σ} {history before since : List (Change σ)}
    (h : s.LastRebuild history before since) (htimely : s.Timely)
    (hsince : (s.after (before ++ [.delegate])).Undisturbed since) :
    (s.after history).delegated = ((s.after before).delegated.1, s.after history) ∧
      (s.after history).delegated.1 =
        ((s.after history).registry.take (s.after before).registry.length).filter
          (s.after history).exclusions.admits := by
  have hdelegated := delegated_of_current (h.current? htimely hsince)
  have hsplit : (s.after before).delegated.2.after since = s.after history := by
    rw [h.splits, after_append]
    rfl
  rw [after_append] at hsince
  have hfilter := delegated_eq_filter h.rebuilds hsince
  rw [hsplit] at hfilter
  refine ⟨hdelegated, ?_⟩
  rw [hdelegated]
  exact hfilter

theorem admits_eq (e : Exclusions) (t : Transformer σ) :
    e.admits t = (!t.isDelegationExcluded &&
      !e.transform.any fun start => startsWith (normalize t.name) start) := by
  simp [Exclusions.admits, Exclusions.isTransformExcluded, Exclusions.isExcluded,
    Exclusions.prefixes, Bool.and_comm]

theorem timely_fresh (config : Config) (options : WriterOptions) :
    (fresh config options : Service σ).Timely := by
  intro snapshot h
  cases h

end Service

end ClassLoom
