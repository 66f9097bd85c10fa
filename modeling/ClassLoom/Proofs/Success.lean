/-!
# When a sequence of steps succeeds

Decoding, verifying and transforming are all written as steps in a row, each of
which may fail. A proof about such a row mostly wants to know one thing: that it
succeeds just when each step does, with what the step before it gave. This file
says so for the kinds of steps that occur, so that a row is opened from the
front, one step at a time, and never by unfolding the notation that it is written
in.
-/

namespace ClassLoom

/-! ## Steps without a state -/

section Plain

variable {ε ε' α β : Type}

theorem except_bind_eq_ok {x : Except ε α} {f : α → Except ε β} {b : β} :
    (x >>= f) = .ok b ↔ ∃ a, x = .ok a ∧ f a = .ok b := by
  cases x with
  | ok a =>
      constructor
      · intro h
        exact ⟨a, rfl, h⟩
      · intro h
        obtain ⟨a', hsame, h⟩ := h
        cases hsame
        exact h
  | error e =>
      constructor
      · intro h
        cases h
      · intro h
        obtain ⟨a, hsame, _⟩ := h
        cases hsame

theorem mapError_eq_ok {x : Except ε α} {f : ε → ε'} {a : α} :
    x.mapError f = .ok a ↔ x = .ok a := by
  cases x with
  | ok b =>
      show Except.ok b = .ok a ↔ Except.ok b = .ok a
      rw [Except.ok.injEq, Except.ok.injEq]
  | error e =>
      constructor
      · intro h
        cases h
      · intro h
        cases h

theorem mapError_eq_error {x : Except ε α} {f : ε → ε'} {e : ε'} :
    x.mapError f = .error e ↔ ∃ cause, x = .error cause ∧ f cause = e := by
  cases x with
  | ok b =>
      constructor
      · intro h
        cases h
      · intro h
        obtain ⟨cause, hsame, _⟩ := h
        cases hsame
  | error cause =>
      show Except.error (f cause) = .error e ↔ _
      simp

theorem map_eq_error {x : Except ε α} {f : α → β} {e : ε} :
    x.map f = .error e ↔ x = .error e := by
  cases x with
  | ok a => simp [Except.map]
  | error cause => simp [Except.map]

theorem exists_map_eq_ok {x : Except ε α} {f : α → β} :
    (∃ b, x.map f = .ok b) ↔ ∃ a, x = .ok a := by
  cases x with
  | ok a => simp [Except.map]
  | error e => simp [Except.map]

end Plain

/-! ## Steps that read on

An action is a function of the state that it finds, so a longer action succeeds
just when its steps do, each from where the one before it stopped. -/

section Reading

variable {ε σ α β : Type} {s s' : σ}

theorem bind_eq_ok {x : EStateM ε σ α} {f : α → EStateM ε σ β} {b : β} :
    (x >>= f) s = .ok b s' ↔ ∃ a t, x s = .ok a t ∧ f a t = .ok b s' := by
  show EStateM.bind x f s = .ok b s' ↔ _
  unfold EStateM.bind
  cases x s with
  | ok a t =>
      constructor
      · intro h
        exact ⟨a, t, rfl, h⟩
      · intro h
        obtain ⟨a', t', hsame, h⟩ := h
        cases hsame
        exact h
  | error e t =>
      constructor
      · intro h
        cases h
      · intro h
        obtain ⟨a, t', hsame, _⟩ := h
        cases hsame

theorem bind_of_ok {x : EStateM ε σ α} {f : α → EStateM ε σ β} {a : α} (h : x s = .ok a s') :
    (x >>= f) s = f a s' := by
  show EStateM.bind x f s = f a s'
  unfold EStateM.bind
  rw [h]

theorem bind_of_error {x : EStateM ε σ α} {f : α → EStateM ε σ β} {e : ε}
    (h : x s = .error e s') : (x >>= f) s = .error e s' := by
  show EStateM.bind x f s = .error e s'
  unfold EStateM.bind
  rw [h]

theorem pure_eq_ok {a b : α} :
    (pure a : EStateM ε σ α) s = .ok b s' ↔ a = b ∧ s = s' := by
  show EStateM.Result.ok a s = .ok b s' ↔ _
  rw [EStateM.Result.ok.injEq]

theorem throw_ne_ok {e : ε} {a : α} : (throw e : EStateM ε σ α) s ≠ .ok a s' := by
  intro h
  cases h

end Reading

/-! ## Steps that keep a state when they fail -/

section Keeping

variable {ε τ α β : Type} {s s' : τ}

theorem stateM_bind {x : StateM τ α} {f : α → StateM τ β} :
    (x >>= f) s = f (x s).1 (x s).2 := rfl

theorem run_bind_eq_ok {x : ExceptT ε (StateM τ) α}
    {f : α → ExceptT ε (StateM τ) β} {b : β} :
    (x >>= f).run s = (.ok b, s') ↔
      ∃ a t, x.run s = (.ok a, t) ∧ (f a).run t = (.ok b, s') := by
  show (match (x.run s).1 with
    | .ok a => (f a).run
    | .error e => pure (.error e)) (x.run s).2 = (.ok b, s') ↔ _
  generalize x.run s = result
  obtain ⟨value, t⟩ := result
  dsimp only
  cases value with
  | ok a =>
      constructor
      · intro h
        exact ⟨a, t, rfl, h⟩
      · intro h
        obtain ⟨a', t', hsame, h⟩ := h
        cases hsame
        exact h
  | error e =>
      constructor
      · intro h
        cases h
      · intro h
        obtain ⟨a, t', hsame, _⟩ := h
        cases hsame

theorem run_bind_eq_error {x : ExceptT ε (StateM τ) α}
    {f : α → ExceptT ε (StateM τ) β} {e : ε} :
    (x >>= f).run s = (.error e, s') ↔
      x.run s = (.error e, s') ∨ ∃ a t, x.run s = (.ok a, t) ∧ (f a).run t = (.error e, s') := by
  show (match (x.run s).1 with
    | .ok a => (f a).run
    | .error e => pure (.error e)) (x.run s).2 = (.error e, s') ↔ _
  generalize x.run s = result
  obtain ⟨value, t⟩ := result
  dsimp only
  cases value with
  | ok a =>
      constructor
      · intro h
        exact .inr ⟨a, t, rfl, h⟩
      · intro h
        rcases h with hsame | ⟨a', t', hsame, h⟩
        · cases hsame
        · cases hsame
          exact h
  | error e' =>
      constructor
      · intro h
        cases h
        exact .inl rfl
      · intro h
        rcases h with hsame | ⟨a, t', hsame, _⟩
        · cases hsame
          rfl
        · cases hsame

theorem run_pure_eq_ok {a b : α} :
    (pure a : ExceptT ε (StateM τ) α).run s = (.ok b, s') ↔ a = b ∧ s = s' := by
  show ((Except.ok a : Except ε α), s) = (.ok b, s') ↔ _
  rw [Prod.mk.injEq, Except.ok.injEq]

theorem run_pure_ne_error {e : ε} {a : α} :
    (pure a : ExceptT ε (StateM τ) α).run s ≠ (.error e, s') := by
  intro h
  cases h

theorem run_throw_ne_ok {e : ε} {a : α} :
    (throw e : ExceptT ε (StateM τ) α).run s ≠ (.ok a, s') := by
  intro h
  cases h

theorem eq_of_run_lift {act : StateM τ α} {a : α}
    (h : (ExceptT.lift act : ExceptT ε (StateM τ) α).run s = (.ok a, s')) :
    act s = (a, s') := by
  have hpair : ((Except.ok (act s).1 : Except ε α), (act s).2) = (.ok a, s') := h
  injection hpair with hvalue hstate
  injection hvalue with hvalue
  rw [← hvalue, ← hstate]
  rfl

end Keeping

/-! ## Steps that may give up -/

section Giving

variable {τ α β : Type} {s : τ}

theorem bind_eq_some {x : StateT τ Option α} {f : α → StateT τ Option β} {r : β × τ} :
    (x >>= f) s = some r ↔ ∃ a t, x s = some (a, t) ∧ f a t = some r := by
  show (x s).bind (fun at' => f at'.1 at'.2) = some r ↔ _
  rw [Option.bind_eq_some_iff, Prod.exists]

theorem bind_of_some {x : StateT τ Option α} {f : α → StateT τ Option β} {a : α} {t : τ}
    (h : x s = some (a, t)) : (x >>= f) s = f a t := by
  show (x s).bind (fun at' => f at'.1 at'.2) = _
  rw [h]
  rfl

theorem bind_of_none {x : StateT τ Option α} {f : α → StateT τ Option β} (h : x s = none) :
    (x >>= f) s = none := by
  show (x s).bind (fun at' => f at'.1 at'.2) = _
  rw [h]
  rfl

end Giving

end ClassLoom
