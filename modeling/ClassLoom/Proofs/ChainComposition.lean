import ClassLoom.Proofs.ChainInMemory

/-!
# Chains one after the other

Splitting a chain in two and applying the parts in turn comes to the same as applying it
whole. A chain takes two shortcuts, though: without transformers it does not look at the
bytes, and a class that its exclusions cover passes unseen. The whole chain takes a
shortcut once where the parts take it twice, or where only one of them does.

Neither makes a difference. What a chain does behind its shortcuts is `applyAll`, which
gives the bytes back unseen when no transformer is left, so the first shortcut is a case of
the loop. And the second depends on the name and the exclusions alone, which both parts
share with the whole. So the statement comes down to the loop, where it is an induction on
the first part.

The equation is one of actions, for any host whatever its actions are. That the same calls
are made is part of it, and is said once more for hosts that write the calls down.
-/

namespace ClassLoom

namespace Transformer

variable {σ : Type} {m : Type → Type} [Monad m] [LawfulMonad m] (host : Host σ m)
  (options : WriterOptions) (context : Context)

/-- Applying two lists of transformers is applying the second to what the first hands on. -/
theorem applyAll_append (as bs : List (Transformer σ)) (bytes : Bytes) :
    applyAll host options context (as ++ bs) bytes =
      applyAll host options context as bytes >>= fun
        | .ok (some output) => applyAll host options context bs output
        | final => pure final := by
  induction as generalizing bytes with
  | nil =>
      show _ = pure (Except.ok (some bytes)) >>= _
      rw [pure_bind, List.nil_append]
  | cons t as ih =>
      rw [List.cons_append]
      cases hbytes : Class.decodeValid bytes with
      | error cause =>
          rw [applyAll_of_unreadable host options context _ hbytes,
            applyAll_of_unreadable host options context _ hbytes, pure_bind]
      | ok c =>
          rw [applyAll_of_readable host options context _ hbytes,
            applyAll_of_readable host options context _ hbytes, bind_assoc]
          refine bind_congr fun outcome => ?_
          -- the induction is needed only where the first transformer hands bytes on
          match t.conclude options context.name outcome with
          | .ok (some output) => exact ih output
          | .ok none | .error error => rw [pure_bind]

end Transformer

namespace Chain

variable {σ : Type}

/-- Applies a chain and, if bytes come out, another one to these. -/
def applyInTurn {m : Type → Type} [Monad m] (host : Host σ m) (first second : Chain σ)
    (bytes : Bytes) (name : ClassName) : m Applied := do
  match ← first.applyWith host bytes name with
  | .ok (some output) => second.applyWith host output name
  | final => pure final

section Split

variable (options : WriterOptions) (exclusions : Option Exclusions)

theorem applyWith_append_eq {m : Type → Type} [Monad m] [LawfulMonad m] (host : Host σ m)
    (as bs : List (Transformer σ)) (bytes : Bytes) (name : ClassName) :
    (⟨as ++ bs, options, exclusions⟩ : Chain σ).applyWith host bytes name =
      applyInTurn host ⟨as, options, exclusions⟩ ⟨bs, options, exclusions⟩ bytes name := by
  unfold applyInTurn
  cases hexcluded : (⟨as, options, exclusions⟩ : Chain σ).excludes name with
  | true =>
      rw [applyWith_of_excludes host ⟨as ++ bs, options, exclusions⟩ hexcluded,
        applyWith_of_excludes host ⟨as, options, exclusions⟩ hexcluded, pure_bind]
      exact (applyWith_of_excludes host ⟨bs, options, exclusions⟩ hexcluded bytes).symm
  | false =>
      have happly (ts : List (Transformer σ)) (bytes : Bytes) :
          (⟨ts, options, exclusions⟩ : Chain σ).applyWith host bytes name =
            Transformer.applyAll host options (.plain name) ts bytes :=
        applyWith_of_not_excludes host ⟨ts, options, exclusions⟩ hexcluded bytes
      simp only [happly]
      exact Transformer.applyAll_append host options (.plain name) as bs bytes

end Split

/-- What is written down of a run is what the run adds, whatever was written before, and
these are calls of a first part of the transformers. -/
theorem applyWith_recording {τ : Type} (host : Host σ (StateM τ)) (chain : Chain σ)
    (bytes : Bytes) (name : ClassName) (s : τ) :
    ∃ result s' made,
      chain.applyWith host bytes name s = (result, s') ∧
      (∀ calls, chain.applyWith host.recording bytes name (s, calls) =
        (result, (s', calls ++ made))) ∧
      made.map Prod.fst <+: chain.transformers := by
  cases hexcluded : chain.excludes name with
  | true =>
      refine ⟨.ok (some bytes), s, [], ?_, fun calls => ?_, List.nil_prefix⟩
      · rw [applyWith_of_excludes host chain hexcluded]
        rfl
      · rw [applyWith_of_excludes host.recording chain hexcluded, List.append_nil]
        rfl
  | false =>
      rw [applyWith_of_not_excludes host chain hexcluded]
      simp only [applyWith_of_not_excludes host.recording chain hexcluded]
      obtain ⟨made, hfirst, -, hmade⟩ := Transformer.exists_made host chain.options (.plain name)
        chain.transformers bytes s
      exact ⟨_, _, made, rfl, hmade, hfirst⟩

/-- A chain is the composition of the parts that it is split into: the second is applied to
the bytes that come out of the first, and what else comes out of the first is final. This
holds for every host. Where the calls are written down, they are those of the first part,
followed by those of the second if that is applied and by none if not. A class that the
exclusions cover passes unchanged, whatever its bytes are, and nothing is done at all. -/
theorem applyWith_append (options : WriterOptions) (exclusions : Option Exclusions)
    (as bs : List (Transformer σ)) (name : ClassName) :
    let chain (ts : List (Transformer σ)) : Chain σ := ⟨ts, options, exclusions⟩
    (∀ (m : Type → Type) [Monad m] [LawfulMonad m] (host : Host σ m) bytes,
      (chain (as ++ bs)).applyWith host bytes name =
        applyInTurn host (chain as) (chain bs) bytes name) ∧
    (∀ (τ : Type) (host : Host σ (StateM τ)) bytes s, ∃ result s' calls,
      (chain as).applyWith host bytes name s = (result, s') ∧
      (chain as).applyWith host.recording bytes name (s, []) = (result, (s', calls)) ∧
      calls.map Prod.fst <+: as ∧
      ((∀ output, result ≠ .ok (some output)) →
        (chain (as ++ bs)).applyWith host.recording bytes name (s, []) = (result, (s', calls))) ∧
      ∀ output, result = .ok (some output) → ∃ result' s'' calls',
        (chain bs).applyWith host output name s' = (result', s'') ∧
        (chain bs).applyWith host.recording output name (s', []) = (result', (s'', calls')) ∧
        calls'.map Prod.fst <+: bs ∧
        (chain (as ++ bs)).applyWith host.recording bytes name (s, []) =
          (result', (s'', calls ++ calls'))) ∧
    ((exclusions.any fun e => e.isTransformExcluded name.dotted (some name.dotted)) = true →
      ∀ (ts : List (Transformer σ)) (m : Type → Type) [Monad m] (host : Host σ m) bytes,
        (chain ts).applyWith host bytes name = pure (.ok (some bytes))) := by
  dsimp only
  refine ⟨?_, ?_, ?_⟩
  · intro m _ _ host bytes
    exact applyWith_append_eq options exclusions host as bs bytes name
  · intro τ host bytes s
    obtain ⟨result, s', calls, hrun, hrecord, hfirst⟩ :=
      applyWith_recording host ⟨as, options, exclusions⟩ bytes name s
    have hrecorded := hrecord []
    rw [List.nil_append] at hrecorded
    -- with the calls written down the whole is still the parts in turn
    have hturn := congrFun
      (applyWith_append_eq options exclusions host.recording as bs bytes name) (s, [])
    unfold applyInTurn at hturn
    rw [stateM_bind, hrecorded] at hturn
    refine ⟨result, s', calls, hrun, hrecorded, hfirst, ?_, ?_⟩
    · intro hfinal
      match result, hfinal with
      | .ok (some output), hfinal => exact absurd rfl (hfinal output)
      | .ok none, _ | .error error, _ => exact hturn
    · intro output hresult
      subst hresult
      obtain ⟨result', s'', calls', hrun', hrecord', hfirst'⟩ :=
        applyWith_recording host ⟨bs, options, exclusions⟩ output name s'
      have hrecorded' := hrecord' []
      rw [List.nil_append] at hrecorded'
      exact ⟨result', s'', calls', hrun', hrecorded', hfirst', hturn.trans (hrecord' calls)⟩
  · intro hexcluded ts m _ host bytes
    exact applyWith_of_excludes host ⟨ts, options, exclusions⟩ hexcluded bytes

end Chain

end ClassLoom
