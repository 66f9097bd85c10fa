import ClassLoom.Guard
import Mathlib.Data.List.Basic

/-!
# What a guard knows about its history

A guard keeps two things, a depth and a flag, and they go separate ways: scopes may be left
in any order, the flag outlives the push that raised it, and clearing it says nothing about
the depth. Here both are read off the plain history of what was done. A scope is open if it
was pushed and its number was not dropped since; the flag is up if, after the last clear,
some push left more scopes open than the capacity allows.

Neither notion looks at a guard. `Scopes.Reflects` relates the two sides, and one step keeps
the relation whatever the step is. The step with something in it drops a scope: the depth
goes down by subtraction that stops at zero, and it is because the depth counts the live
scopes, of which the dropped one is one, that it never stops there.
-/

namespace ClassLoom

namespace ScopeStep

/-! ## What a history says -/

/-- The scope was pushed, and not dropped since. Scopes are numbered in the order in which
they were pushed. -/
def LeftOpen (past : List ScopeStep) (scope : Nat) : Prop :=
  ∃ before after, past = before ++ push :: after ∧ before.count push = scope ∧
    drop scope ∉ after

theorem leftOpen_iff_exists_lt {past : List ScopeStep} {scope : Nat} :
    LeftOpen past scope ↔ ∃ n < past.length, past[n]? = some push ∧
      (past.take n).count push = scope ∧ drop scope ∉ past.drop (n + 1) := by
  constructor
  · rintro ⟨before, after, rfl, hnumber, hkept⟩
    refine ⟨before.length, by simp, by simp, by simpa using hnumber, ?_⟩
    rw [List.append_cons, List.drop_left' (by simp)]
    exact hkept
  · rintro ⟨n, hn, hpush, hnumber, hkept⟩
    obtain ⟨_, hget⟩ := List.getElem?_eq_some_iff.mp hpush
    refine ⟨past.take n, past.drop (n + 1), ?_, hnumber, hkept⟩
    rw [← hget, List.getElem_cons_drop, List.take_append_drop]

instance (past : List ScopeStep) (scope : Nat) : Decidable (LeftOpen past scope) :=
  decidable_of_iff _ leftOpen_iff_exists_lt.symm

/-- The scopes that are open, in the order in which they were pushed. -/
def openScopes (past : List ScopeStep) : List Nat :=
  (List.range (past.count push)).filter fun scope => LeftOpen past scope

/-- Since the last clear some push has left more than `maxDepth` scopes open. -/
def WentOver (maxDepth : Nat) (past : List ScopeStep) : Prop :=
  ∃ before after, past = before ++ push :: after ∧ clear ∉ after ∧
    maxDepth < (openScopes (before ++ [push])).length

/-! ### One more step -/

section Steps

variable {past : List ScopeStep} {scope maxDepth : Nat} {step : ScopeStep}

theorem LeftOpen.lt_count (h : LeftOpen past scope) : scope < past.count push := by
  obtain ⟨before, after, rfl, rfl, -⟩ := h
  simp [List.count_append]

theorem mem_openScopes : scope ∈ openScopes past ↔ LeftOpen past scope := by
  unfold openScopes
  rw [List.mem_filter, List.mem_range, decide_eq_true_iff]
  exact and_iff_right_of_imp LeftOpen.lt_count

/-- A split of a longer history at a push: the push is the new step, or an earlier one. -/
theorem exists_split_concat {motive : List ScopeStep → List ScopeStep → Prop} :
    (∃ before after, past ++ [step] = before ++ push :: after ∧ motive before after) ↔
      (step = push ∧ motive past []) ∨
        ∃ before after, past = before ++ push :: after ∧ motive before (after ++ [step]) := by
  constructor
  · rintro ⟨before, after, hsplit, hmotive⟩
    rcases List.eq_nil_or_concat' after with rfl | ⟨after, last, rfl⟩
    · obtain ⟨rfl, hstep⟩ := List.append_inj' hsplit rfl
      exact .inl ⟨List.head_eq_of_cons_eq hstep, hmotive⟩
    · rw [← List.cons_append, ← List.append_assoc] at hsplit
      obtain ⟨rfl, hstep⟩ := List.append_inj' hsplit rfl
      rw [List.head_eq_of_cons_eq hstep]
      exact .inr ⟨before, after, rfl, hmotive⟩
  · rintro (⟨rfl, hmotive⟩ | ⟨before, after, rfl, hmotive⟩)
    · exact ⟨past, [], rfl, hmotive⟩
    · exact ⟨before, after ++ [step], by simp, hmotive⟩

/-- A scope is open after one more step if the step pushed it, or if it was open before and
the step did not drop it. -/
theorem leftOpen_concat :
    LeftOpen (past ++ [step]) scope ↔
      (step = push ∧ past.count push = scope) ∨ (LeftOpen past scope ∧ step ≠ drop scope) := by
  unfold LeftOpen
  rw [exists_split_concat]
  simp only [List.mem_append, List.mem_singleton, not_or, List.not_mem_nil, not_false_eq_true,
    and_true, ne_eq, eq_comm (a := step)]
  grind

theorem wentOver_nil : ¬ WentOver maxDepth [] := by
  rintro ⟨before, after, hsplit, -⟩
  simp at hsplit

/-- One more step: a push that goes too deep, or any step but a clear after such a push. -/
theorem wentOver_concat :
    WentOver maxDepth (past ++ [step]) ↔
      (step = push ∧ maxDepth < (openScopes (past ++ [push])).length) ∨
        (WentOver maxDepth past ∧ step ≠ clear) := by
  unfold WentOver
  rw [exists_split_concat]
  simp only [List.mem_append, List.mem_singleton, not_or, List.not_mem_nil, not_false_eq_true,
    true_and, ne_eq, eq_comm (a := step)]
  grind

theorem count_push_concat (hpush : step ≠ push) :
    (past ++ [step]).count push = past.count push := by
  simp [List.count_append, hpush]

theorem openScopes_push :
    openScopes (past ++ [push]) = openScopes past ++ [past.count push] := by
  have hearlier : ∀ scope ∈ List.range (past.count push),
      decide (LeftOpen (past ++ [push]) scope) = decide (LeftOpen past scope) := by
    intro scope hscope
    have hold : past.count push ≠ scope := Nat.ne_of_gt (List.mem_range.mp hscope)
    simp [leftOpen_concat, hold]
  have hlatest : LeftOpen (past ++ [push]) (past.count push) :=
    leftOpen_concat.mpr (.inl ⟨rfl, rfl⟩)
  have hcount : (past ++ [push]).count push = past.count push + 1 := by simp
  unfold openScopes
  rw [hcount, List.range_succ, List.filter_append, List.filter_congr hearlier,
    List.filter_singleton, decide_eq_true hlatest, cond_true]

theorem openScopes_of_ne_push (hstep : step ≠ push) :
    openScopes (past ++ [step]) = (openScopes past).filter fun scope => step ≠ drop scope := by
  unfold openScopes
  rw [count_push_concat hstep, List.filter_filter]
  refine List.filter_congr fun scope _ => ?_
  simp [leftOpen_concat, hstep, Bool.and_comm]

theorem nodup_openScopes : (openScopes past).Nodup :=
  List.nodup_range.filter _

theorem openScopes_drop : openScopes (past ++ [drop scope]) = (openScopes past).erase scope := by
  rw [openScopes_of_ne_push (by simp), nodup_openScopes.erase_eq_filter]
  refine List.filter_congr fun other _ => ?_
  rw [bne_comm, bne, beq_eq_decide]
  simp

/-- A step that neither pushes a scope nor drops an open one. -/
theorem openScopes_of_idle (hpush : step ≠ push)
    (hdrop : ∀ scope, LeftOpen past scope → step ≠ drop scope) :
    openScopes (past ++ [step]) = openScopes past := by
  rw [openScopes_of_ne_push hpush, List.filter_eq_self]
  exact fun scope hscope => decide_eq_true (hdrop scope (mem_openScopes.mp hscope))

theorem leftOpen_of_idle (hpush : step ≠ push)
    (hdrop : ∀ scope, LeftOpen past scope → step ≠ drop scope) :
    LeftOpen (past ++ [step]) scope ↔ LeftOpen past scope := by
  rw [leftOpen_concat, or_iff_right fun h => hpush h.1]
  exact and_iff_left_of_imp (hdrop scope)

end Steps

end ScopeStep

/-! ## A guard and its history -/

namespace Scopes

open ScopeStep (LeftOpen openScopes WentOver)

/-- The guard after these steps, whatever they answer. -/
def after (s : Scopes) (steps : List ScopeStep) : Scopes :=
  steps.foldl (fun s step => (s.step step).2) s

/-- The guard knows what its history says. -/
structure Reflects (s : Scopes) (maxDepth : Nat) (past : List ScopeStep) : Prop where
  maxDepth_eq : s.guard.maxDepth = maxDepth
  depth_eq : s.guard.depth = (openScopes past).length
  raised_iff : s.guard.raised = true ↔ WentOver maxDepth past
  length_live : s.live.length = past.count .push
  isLive_iff : ∀ scope, s.isLive scope = true ↔ LeftOpen past scope

section Histories

variable {s : Scopes} {maxDepth : Nat} {past : List ScopeStep}

theorem reflects_new : (new maxDepth).Reflects maxDepth [] where
  maxDepth_eq := rfl
  depth_eq := rfl
  raised_iff := iff_of_false Bool.false_ne_true ScopeStep.wentOver_nil
  length_live := rfl
  isLive_iff scope := by simp [isLive, new, LeftOpen]

theorem isLive_push (s : Scopes) (scope : Nat) :
    (s.step .push).2.isLive scope = true ↔ s.live.length = scope ∨ s.isLive scope = true := by
  unfold isLive step
  dsimp only
  rcases Nat.lt_trichotomy scope s.live.length with hless | rfl | hmore
  · simp [List.getElem?_append_left hless, Nat.ne_of_gt hless]
  · simp
  · have hpast : (s.live ++ [true]).length ≤ scope := by
      rw [List.length_append]
      exact hmore
    rw [List.getElem?_eq_none hpast, List.getElem?_eq_none (Nat.le_of_lt hmore)]
    simp [Nat.ne_of_lt hmore]

theorem isLive_set (s : Scopes) (dropped scope : Nat) :
    (⟨s.guard.leave, s.live.set dropped false⟩ : Scopes).isLive scope = true ↔
      s.isLive scope = true ∧ dropped ≠ scope := by
  unfold isLive
  dsimp only
  rw [List.getElem?_set]
  split
  · next hsame =>
      subst hsame
      split <;> simp
  · next hother => simp [hother]

/-- Steps that open and close nothing and leave the flag alone need not be noticed. -/
theorem Reflects.idle (h : s.Reflects maxDepth past) {step : ScopeStep} (hpush : step ≠ .push)
    (hclear : step ≠ .clear) (hdrop : ∀ scope, LeftOpen past scope → step ≠ .drop scope) :
    s.Reflects maxDepth (past ++ [step]) where
  maxDepth_eq := h.maxDepth_eq
  depth_eq := by rw [ScopeStep.openScopes_of_idle hpush hdrop, h.depth_eq]
  raised_iff := by simp [ScopeStep.wentOver_concat, hpush, hclear, h.raised_iff]
  length_live := by rw [ScopeStep.count_push_concat hpush, h.length_live]
  isLive_iff scope := by rw [ScopeStep.leftOpen_of_idle hpush hdrop, h.isLive_iff]

theorem Reflects.push (h : s.Reflects maxDepth past) :
    (s.step .push).2.Reflects maxDepth (past ++ [.push]) where
  maxDepth_eq := h.maxDepth_eq
  depth_eq := by simp [step, Guard.push, h.depth_eq, ScopeStep.openScopes_push]
  raised_iff := by
    simp [step, Guard.push, ScopeStep.wentOver_concat, ScopeStep.openScopes_push, h.raised_iff,
      h.depth_eq, h.maxDepth_eq, or_comm]
  length_live := by simp [step, h.length_live]
  isLive_iff scope := by
    simp [isLive_push, ScopeStep.leftOpen_concat, h.isLive_iff, h.length_live]

/-- The depth counts the dropped scope among others, so it is not zero. -/
theorem Reflects.drop (h : s.Reflects maxDepth past) {dropped : Nat}
    (hlive : s.isLive dropped = true) :
    (s.step (.drop dropped)).2.Reflects maxDepth (past ++ [.drop dropped]) := by
  have hopen : dropped ∈ openScopes past :=
    ScopeStep.mem_openScopes.mpr ((h.isLive_iff dropped).mp hlive)
  unfold step
  dsimp only
  rw [if_pos hlive]
  refine ⟨h.maxDepth_eq, ?_, ?_, ?_, fun scope => ?_⟩
  · rw [ScopeStep.openScopes_drop, List.length_erase_of_mem hopen, ← h.depth_eq]
    rfl
  · simp [Guard.leave, ScopeStep.wentOver_concat, h.raised_iff]
  · simp [h.length_live]
  · simp [isLive_set, ScopeStep.leftOpen_concat, h.isLive_iff]

theorem Reflects.clear (h : s.Reflects maxDepth past) :
    (s.step .clear).2.Reflects maxDepth (past ++ [.clear]) where
  maxDepth_eq := h.maxDepth_eq
  depth_eq := by
    rw [ScopeStep.openScopes_of_idle (by simp) (by simp), ← h.depth_eq]
    rfl
  raised_iff := by simp [step, Guard.clear, ScopeStep.wentOver_concat]
  length_live := by
    rw [ScopeStep.count_push_concat (by simp), ← h.length_live]
    rfl
  isLive_iff scope := by
    rw [ScopeStep.leftOpen_of_idle (by simp) (by simp), ← h.isLive_iff]
    rfl

/-- Whatever the step is, the guard knows about it afterwards. -/
theorem Reflects.step (h : s.Reflects maxDepth past) (step : ScopeStep) :
    (s.step step).2.Reflects maxDepth (past ++ [step]) := by
  cases step with
  | push => exact h.push
  | drop dropped =>
      cases hlive : s.isLive dropped with
      | true => exact h.drop hlive
      | false =>
          have hsame : (s.step (.drop dropped)).2 = s := by simp [Scopes.step, hlive]
          rw [hsame]
          refine h.idle (by simp) (by simp) ?_
          rintro scope hopen hstep
          cases hstep
          rw [← h.isLive_iff, hlive] at hopen
          cases hopen
  | check scope => exact h.idle (by simp) (by simp) (by simp)
  | clear => exact h.clear

theorem Reflects.after (h : s.Reflects maxDepth past) (steps : List ScopeStep) :
    (s.after steps).Reflects maxDepth (past ++ steps) := by
  induction steps generalizing s past with
  | nil => rwa [List.append_nil]
  | cons step steps ih =>
      rw [List.append_cons]
      exact ih (h.step step)

end Histories

/-- After any history a guard knows what the history says: how many scopes are open, which
ones they are, and whether some push since the last clear has left too many of them open.
Leaving an open scope takes one off the depth, which is never zero then, and leaves the flag
alone; checking changes nothing, and tells whether too many scopes are open at the moment;
clearing changes nothing but the flag. -/
theorem guard_follows_history (maxDepth : Nat) (past : List ScopeStep) :
    let s := (new maxDepth).after past
    s.guard.maxDepth = maxDepth ∧
    s.guard.depth = (openScopes past).length ∧
    (s.guard.raised = true ↔ WentOver maxDepth past) ∧
    (∀ scope, s.isLive scope = true ↔ scope ∈ openScopes past) ∧
    (∀ scope ∈ openScopes past,
      (s.step (.drop scope)).2.guard.depth + 1 = s.guard.depth ∧
      (s.step (.drop scope)).2.guard.raised = s.guard.raised ∧
      s.step (.check scope) = (some (decide (maxDepth < (openScopes past).length)), s)) ∧
    (s.step .clear).2 = { s with guard.raised := false } := by
  intro s
  have h : s.Reflects maxDepth past := reflects_new.after past
  have hlive : ∀ scope, s.isLive scope = true ↔ scope ∈ openScopes past := fun scope =>
    (h.isLive_iff scope).trans ScopeStep.mem_openScopes.symm
  refine ⟨h.maxDepth_eq, h.depth_eq, h.raised_iff, hlive, ?_, rfl⟩
  intro scope hopen
  have hpositive : 0 < s.guard.depth := by
    rw [h.depth_eq]
    exact List.length_pos_of_mem hopen
  simp only [step, (hlive scope).mpr hopen, if_true]
  refine ⟨Nat.sub_add_cancel hpositive, rfl, ?_⟩
  rw [Guard.isOver, h.maxDepth_eq, h.depth_eq]

/-- Two scopes, of which the outer one is left first: the flag is up although only one scope
is open. -/
theorem guard_follows_history_left_out_of_order :
    let past : List ScopeStep := [.push, .push, .drop 0]
    let s := (new 1).after past
    openScopes past = [1] ∧ s.guard.depth = 1 ∧ s.guard.raised = true ∧
      s.step (.check 1) = (some false, s) ∧ (s.step (.drop 1)).2.guard.depth = 0 ∧
      (s.step (.drop 1)).2.guard.raised = true := by
  intro past s
  have hopen : openScopes past = [1] := by decide
  have hover : WentOver 1 past := ⟨[.push], [.drop 0], rfl, by decide, by decide⟩
  obtain ⟨-, hdepth, hraised, -, hscope, -⟩ := guard_follows_history 1 past
  obtain ⟨hdrop, hflag, hcheck⟩ := hscope 1 (by simp [hopen])
  rw [hopen] at hdepth hcheck
  have hup := hraised.mpr hover
  exact ⟨hopen, hdepth, hup, hcheck, Nat.succ.inj (hdrop.trans hdepth), hflag.trans hup⟩

end Scopes

end ClassLoom
