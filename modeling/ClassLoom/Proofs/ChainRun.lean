import ClassLoom.Chain
import ClassLoom.Proofs.ClassFileRoundTrip

/-!
# Running a chain, one transformer at a time

A chain hands bytes from one transformer to the next, and each of them decodes
what its predecessor encoded. `decodeValid_of_encodeValid` is what that comes to:
a class that was verified and encoded is decoded and verified again without
objection, as the class prepared for writing, and the one thing that can go wrong
is a version that is too new.

The rest of the file is bookkeeping about runs. The host may be any that keeps its
state in one place, so that transformers are free in what they do and in what they
are told, and `applyAll` is opened into one equation for each way in which the
first transformer can end. `Leaves` says which classes the transformers of a
run leave behind, and which transformers were still to come.
-/

namespace ClassLoom

namespace Class

/-! ## What one step hands to the next -/

theorem decodeValid_eq_ok {bytes : Bytes} {c : Class} :
    decodeValid bytes = .ok c ↔ decode bytes = .ok c ∧ c.verify = .ok () := by
  unfold decodeValid
  rw [except_bind_eq_ok]
  constructor
  · intro h
    obtain ⟨found, hdecode, h⟩ := h
    obtain ⟨done, hverify, hfound⟩ := except_bind_eq_ok.mp h
    injection hfound with hfound
    rw [hfound] at hdecode hverify
    exact ⟨hdecode, mapError_eq_ok.mp hverify⟩
  · intro h
    obtain ⟨hdecode, hverify⟩ := h
    refine ⟨c, hdecode, except_bind_eq_ok.mpr ⟨(), ?_, rfl⟩⟩
    exact mapError_eq_ok.mpr hverify

theorem encodeValid_eq_ok {options : WriterOptions} {c : Class} {bytes : Bytes} :
    c.encodeValid options = .ok bytes ↔
      c.verify = .ok () ∧ c.encode options = .ok bytes := by
  unfold encodeValid
  rw [except_bind_eq_ok]
  constructor
  · intro h
    obtain ⟨done, hverify, hencode⟩ := h
    exact ⟨mapError_eq_ok.mp hverify, mapError_eq_ok.mp hencode⟩
  · intro h
    obtain ⟨hverify, hencode⟩ := h
    exact ⟨(), mapError_eq_ok.mpr hverify, mapError_eq_ok.mpr hencode⟩

theorem decodeValid_of_decode_error {bytes : Bytes} {cause : ClassFileError}
    (h : decode bytes = .error cause) : decodeValid bytes = .error cause := by
  unfold decodeValid
  rw [h]
  rfl

/-- What was verified and encoded is decoded and verified, unless its version is
too new. -/
theorem decodeValid_of_encodeValid {options : WriterOptions} {c : Class}
    {bytes : Bytes} (h : c.encodeValid options = .ok bytes) :
    decodeValid bytes =
      if c.majorVersion ≤ maxMajorVersion then .ok (options.prepare c)
      else .error (.unsupportedVersion c.majorVersion c.minorVersion) := by
  obtain ⟨hverify, hencode⟩ := encodeValid_eq_ok.mp h
  have hdecode := decode_of_encode_eq_ok hencode
  by_cases hle : c.majorVersion ≤ maxMajorVersion
  · rw [if_pos hle] at hdecode ⊢
    refine decodeValid_eq_ok.mpr ⟨hdecode, ?_⟩
    rw [options.verify_prepare]
    exact hverify
  · rw [if_neg hle] at hdecode ⊢
    exact decodeValid_of_decode_error hdecode

end Class

namespace Transformer

variable {σ τ : Type}

/-! ## What an outcome comes to -/

section Outcomes

variable (t : Transformer σ) {options : WriterOptions} (name : ClassName)
  {c : Class}

theorem conclude_keep_of_ok {output : Bytes}
    (h : c.encodeValid options = .ok output) :
    t.conclude options name (.keep c) = .ok (some output) := by
  unfold conclude
  dsimp only
  rw [h]
  rfl

theorem conclude_keep_of_error {cause : TransformError}
    (h : c.encodeValid options = .error cause) :
    t.conclude options name (.keep c) = .error (t.blame name cause) := by
  unfold conclude
  dsimp only
  rw [h]
  rfl

/-- The errors of a call are those that blame the transformer. -/
theorem conclude_eq_error {outcome : Outcome} {error : PipelineError}
    (h : t.conclude options name outcome = .error error) :
    ∃ cause, error = t.blame name cause := by
  cases outcome with
  | keep c =>
      cases hencode : c.encodeValid options with
      | ok output =>
          rw [t.conclude_keep_of_ok name hencode] at h
          cases h
      | error fault =>
          rw [t.conclude_keep_of_error name hencode] at h
          cases h
          exact ⟨fault, rfl⟩
  | drop => cases h
  | fail fault =>
      cases h
      exact ⟨fault, rfl⟩

/-- A transformer that was called is never taken for unreadable bytes. -/
theorem conclude_ne_decode {outcome : Outcome} {n : String}
    {cause : ClassFileError} :
    t.conclude options name outcome ≠ .error (.decode n cause) := by
  intro h
  obtain ⟨_, hblamed⟩ := t.conclude_eq_error name h
  cases hblamed

theorem conclude_eq_some {outcome : Outcome} {output : Bytes}
    (h : t.conclude options name outcome = .ok (some output)) :
    ∃ c, outcome = .keep c ∧ c.encodeValid options = .ok output := by
  cases outcome with
  | keep c =>
      cases hencode : c.encodeValid options with
      | ok found =>
          rw [t.conclude_keep_of_ok name hencode] at h
          injection h with h
          injection h with h
          exact ⟨c, rfl, by rw [hencode, h]⟩
      | error fault =>
          rw [t.conclude_keep_of_error name hencode] at h
          cases h
  | drop => cases h
  | fail fault => cases h

end Outcomes

/-! ## Applying several -/

section Steps

variable {m : Type → Type} [Monad m] [LawfulMonad m] (host : Host σ m) (options : WriterOptions)
  (context : Context) {t : Transformer σ} (ts : List (Transformer σ)) {bytes : Bytes}

theorem applyAll_of_unreadable {cause : ClassFileError}
    (hbytes : Class.decodeValid bytes = .error cause) :
    applyAll host options context (t :: ts) bytes =
      pure (.error (.decode context.name.dotted cause)) := by
  unfold applyAll Transformer.apply
  rw [hbytes]
  dsimp only
  rw [pure_bind]

theorem applyAll_of_readable {c : Class} (hbytes : Class.decodeValid bytes = .ok c) :
    applyAll host options context (t :: ts) bytes =
      t.call host context c >>= fun outcome =>
        match t.conclude options context.name outcome with
        | .ok (some output) => applyAll host options context ts output
        | final => pure final := by
  conv =>
    lhs
    unfold applyAll Transformer.apply
  rw [hbytes]
  dsimp only
  rw [bind_assoc]
  exact bind_congr fun outcome => pure_bind _ _

end Steps

/-! ### Hosts that keep their state in one place -/

theorem exists_call (t : Transformer σ) (host : Host σ (StateM τ))
    (context : Context) (c : Class) (s : τ) :
    ∃ outcome s', t.call host context c s = (outcome, s') := ⟨_, _, rfl⟩

section Runs

variable (host : Host σ (StateM τ)) (options : WriterOptions) (context : Context)
  {t : Transformer σ} (ts : List (Transformer σ)) {bytes : Bytes}

theorem applyAll_of_decodeValid_error {cause : ClassFileError}
    (hbytes : Class.decodeValid bytes = .error cause) (s : τ) :
    applyAll host options context (t :: ts) bytes s =
      (.error (.decode context.name.dotted cause), s) := by
  rw [applyAll_of_unreadable host options context ts hbytes]
  rfl

/-- What follows a call depends on the outcome and on the state after it. -/
theorem applyAll_of_call {c : Class} {s s' : τ} {outcome : Outcome}
    (hbytes : Class.decodeValid bytes = .ok c)
    (hcall : t.call host context c s = (outcome, s')) :
    applyAll host options context (t :: ts) bytes s =
      match t.conclude options context.name outcome with
      | .ok (some output) => applyAll host options context ts output s'
      | final => (final, s') := by
  rw [applyAll_of_readable host options context ts hbytes, stateM_bind, hcall]
  dsimp only
  match t.conclude options context.name outcome with
  | .ok (some output) | .ok none | .error error => rfl

theorem applyAll_of_keep {c kept : Class} {s s' : τ} {output : Bytes}
    (hbytes : Class.decodeValid bytes = .ok c)
    (hcall : t.call host context c s = (.keep kept, s'))
    (hencode : kept.encodeValid options = .ok output) :
    applyAll host options context (t :: ts) bytes s =
      applyAll host options context ts output s' := by
  rw [applyAll_of_call host options context ts hbytes hcall,
    t.conclude_keep_of_ok context.name hencode]

end Runs

/-! ## What transformers leave behind -/

/-- In a run of transformers on `bytes` from the state `s`, one of them leaves the
class `c` behind, and `after` are the ones that were still to come. -/
inductive Leaves (host : Host σ (StateM τ)) (options : WriterOptions)
    (context : Context) :
    List (Transformer σ) → Bytes → τ → Class → List (Transformer σ) → Prop where
  /-- The first transformer does. -/
  | here {t : Transformer σ} {ts : List (Transformer σ)} {bytes : Bytes}
      {s s' : τ} {c kept : Class}
      (hbytes : Class.decodeValid bytes = .ok c)
      (hcall : t.call host context c s = (.keep kept, s')) :
      Leaves host options context (t :: ts) bytes s kept ts
  /-- One of those behind it does, after the first one did well. -/
  | later {t : Transformer σ} {ts after : List (Transformer σ)}
      {bytes output : Bytes} {s s' : τ} {c kept last : Class}
      (hbytes : Class.decodeValid bytes = .ok c)
      (hcall : t.call host context c s = (.keep kept, s'))
      (hencode : kept.encodeValid options = .ok output)
      (hlater : Leaves host options context ts output s' last after) :
      Leaves host options context (t :: ts) bytes s last after

namespace Leaves

variable {host : Host σ (StateM τ)} {options : WriterOptions} {context : Context}
  {ts after : List (Transformer σ)} {bytes output : Bytes} {s : τ} {last : Class}

/-- Nothing is left behind unless the bytes were good. -/
theorem decodeValid_ok (h : Leaves host options context ts bytes s last after) :
    ∃ c, Class.decodeValid bytes = .ok c := by
  cases h with
  | here hbytes _ => exact ⟨_, hbytes⟩
  | later hbytes _ _ _ => exact ⟨_, hbytes⟩

/-- The rest of the run starts from what was left behind. -/
theorem applyAll_eq (h : Leaves host options context ts bytes s last after)
    (hencode : last.encodeValid options = .ok output) :
    ∃ s', applyAll host options context ts bytes s =
      applyAll host options context after output s' := by
  induction h with
  | here hbytes hcall =>
      exact ⟨_, applyAll_of_keep host options context _ hbytes hcall hencode⟩
  | later hbytes hcall hmid _ ih =>
      obtain ⟨s', hs'⟩ := ih hencode
      refine ⟨s', ?_⟩
      rw [applyAll_of_keep host options context _ hbytes hcall hmid]
      exact hs'

/-- As long as no call makes a class too new, none is left behind. -/
theorem majorVersion_le (h : Leaves host options context ts bytes s last after)
    (hcalls : ∀ t ∈ ts, ∀ c s kept s', c.majorVersion ≤ Class.maxMajorVersion →
      t.call host context c s = (.keep kept, s') →
        kept.majorVersion ≤ Class.maxMajorVersion) :
    last.majorVersion ≤ Class.maxMajorVersion := by
  induction h with
  | here hbytes hcall =>
      have hle := (Class.decode_eq_ok.mp (Class.decodeValid_eq_ok.mp hbytes).1).1
      exact hcalls _ List.mem_cons_self _ _ _ _ hle hcall
  | later _ _ _ _ ih =>
      refine ih ?_
      intro t ht
      exact hcalls t (List.mem_cons_of_mem _ ht)

end Leaves

/-- A transformer that edits every class in the same way and asks for nothing. -/
def editing (name : String) (edit : Class → Class) : Transformer σ :=
  ⟨name, false, none, fun _ c => .finish (.keep (edit c))⟩

theorem call_editing (name : String) (edit : Class → Class) (context : Context)
    (c : Class) (s : σ) :
    (editing name edit).call .alone context c s = (.keep (edit c), s) := rfl

/-- Edits that make no class too new leave none behind that is. -/
theorem Leaves.majorVersion_le_of_editing
    (edits : List (String × (Class → Class)))
    (hedits : ∀ e ∈ edits, ∀ c : Class, c.majorVersion ≤ Class.maxMajorVersion →
      (e.2 c).majorVersion ≤ Class.maxMajorVersion)
    {options : WriterOptions} {context : Context} {bytes : Bytes} {s : σ}
    {last : Class} {after : List (Transformer σ)}
    (h : Leaves .alone options context (edits.map fun e => editing e.1 e.2) bytes s last after) :
    last.majorVersion ≤ Class.maxMajorVersion := by
  refine h.majorVersion_le ?_
  intro t ht c s kept s' hle hcall
  obtain ⟨e, he, hedit⟩ := List.mem_map.mp ht
  rw [← hedit, call_editing] at hcall
  injection hcall with hkept _
  injection hkept with hkept
  rw [← hkept]
  exact hedits e he c hle

end Transformer

/-! ## Chains -/

theorem Chain.applyWith_of_not_exempt {σ : Type} {m : Type → Type} [Monad m]
    (host : Host σ m) {chain : Chain σ} {name : ClassName}
    (hlive : chain.isExempt name = false) (bytes : Bytes) :
    chain.applyWith host bytes name =
      Transformer.applyAll host chain.options (.plain name) chain.transformers
        bytes := by
  unfold Chain.applyWith
  rw [hlive]
  rfl

/-- The exclusions of the chain keep its transformers away from the class. -/
def Chain.excludes {σ : Type} (chain : Chain σ) (name : ClassName) : Bool :=
  chain.exclusions.any fun e => e.isTransformExcluded name.dotted (some name.dotted)

theorem Chain.applyWith_of_excludes {σ : Type} {m : Type → Type} [Monad m]
    (host : Host σ m) (chain : Chain σ) {name : ClassName} (h : chain.excludes name = true)
    (bytes : Bytes) : chain.applyWith host bytes name = pure (.ok (some bytes)) := by
  have hexempt : chain.isExempt name = true := by
    show (_ || chain.excludes name) = true
    rw [h, Bool.or_true]
  unfold Chain.applyWith
  rw [if_pos hexempt]

/-- A chain that is not told to leave a class alone applies its transformers, also if it
has none. -/
theorem Chain.applyWith_of_not_excludes {σ : Type} {m : Type → Type} [Monad m]
    (host : Host σ m) (chain : Chain σ) {name : ClassName} (h : chain.excludes name = false)
    (bytes : Bytes) :
    chain.applyWith host bytes name =
      Transformer.applyAll host chain.options (.plain name) chain.transformers bytes := by
  have hexempt : chain.isExempt name = chain.transformers.isEmpty := by
    show (_ || chain.excludes name) = _
    rw [h, Bool.or_false]
  unfold Chain.applyWith
  rw [hexempt]
  cases chain.transformers with
  | nil => rfl
  | cons t ts => rfl

theorem Chain.transformers_ne_nil {σ : Type} {chain : Chain σ} {name : ClassName}
    (hlive : chain.isExempt name = false) : chain.transformers ≠ [] := by
  intro hnil
  unfold Chain.isExempt at hlive
  rw [hnil] at hlive
  cases hlive

end ClassLoom
