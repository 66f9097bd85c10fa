import ClassLoom.Archive.Transform
import ClassLoom.Proofs.Success

/-!
# Transforming an archive, one entry at a time

An archive is transformed from its first entry to its last, and what happens to an
entry depends on the state in which it is reached, since transformers may remember
what they have seen. `Reaches` names that state. With it, a fact about a fate in
the list of fates becomes a fact about the one call of `Entry.transform` that it
came from, which is how a line of the report is traced back to its entry.

As in runs of chains, the application may keep its state in any one place.
-/

namespace ClassLoom

/-! ## From fates back to entries -/

section Entries

variable {τ : Type} {apply : Application (StateM τ)}

/-- Transforming `entries` from the state `s` gets to the entry `e` in the state
`s₁`. -/
def Reaches (apply : Application (StateM τ)) (entries : List Entry) (s : τ)
    (e : Entry) (s₁ : τ) : Prop :=
  ∃ before rest fates, entries = before ++ e :: rest ∧
    (before.mapM (Entry.transform apply)).run s = (.ok fates, s₁)

theorem reaches_head (e : Entry) (es : List Entry) (s : τ) :
    Reaches apply (e :: es) s e s :=
  ⟨[], es, [], rfl, rfl⟩

theorem reaches_cons {e found : Entry} {es : List Entry} {s s₁ s₂ : τ}
    {fate : Fate} (hfirst : (e.transform apply).run s = (.ok fate, s₁))
    (h : Reaches apply es s₁ found s₂) : Reaches apply (e :: es) s found s₂ := by
  obtain ⟨before, rest, fates, hes, hfates⟩ := h
  refine ⟨e :: before, rest, fate :: fates, ?_, ?_⟩
  · rw [hes]
    rfl
  · rw [List.mapM_cons]
    refine run_bind_eq_ok.mpr ⟨fate, s₁, hfirst, ?_⟩
    exact run_bind_eq_ok.mpr ⟨fates, s₂, hfates, run_pure_eq_ok.mpr ⟨rfl, rfl⟩⟩

theorem reaches_of_mem_fates {entries : List Entry} {fates : List Fate}
    {fate : Fate} {s s' : τ}
    (h : (entries.mapM (Entry.transform apply)).run s = (.ok fates, s'))
    (hfate : fate ∈ fates) :
    ∃ e s₁ s₂, Reaches apply entries s e s₁ ∧
      (e.transform apply).run s₁ = (.ok fate, s₂) := by
  induction entries generalizing fates s s' with
  | nil =>
      obtain ⟨hnil, _⟩ := run_pure_eq_ok.mp h
      rw [← hnil] at hfate
      cases hfate
  | cons e es ih =>
      rw [List.mapM_cons] at h
      obtain ⟨first, s₁, hfirst, h⟩ := run_bind_eq_ok.mp h
      obtain ⟨others, s₂, hothers, h⟩ := run_bind_eq_ok.mp h
      obtain ⟨hcons, _⟩ := run_pure_eq_ok.mp h
      rw [← hcons] at hfate
      rcases List.mem_cons.mp hfate with hhead | htail
      · rw [hhead]
        exact ⟨e, s, s₁, reaches_head e es s, hfirst⟩
      · obtain ⟨found, t₁, t₂, hreaches, hfound⟩ := ih hothers htail
        exact ⟨found, t₁, t₂, reaches_cons hfirst hreaches, hfound⟩

theorem Entry.read_eq_ok {e : Entry} {bytes : Bytes} :
    e.read = .ok bytes ↔ e.intact = true ∧ e.data = bytes := by
  unfold Entry.read
  cases e.intact with
  | false => simp
  | true => simp

/-- An entry is given up as undecodable only by a decode failure of its own
data. -/
theorem Entry.transform_eq_undecodable {e u : Entry} {s s' : τ}
    (h : (e.transform apply).run s = (.ok (.undecodable u), s')) :
    u = e.asRegular ∧ ∃ name error, e.className? = some name ∧
      (apply e.data name s).1 = .error error ∧ error.isDecodeFailure = true := by
  unfold Entry.transform at h
  cases hname : e.className? with
  | none =>
      rw [hname] at h
      obtain ⟨hfate, _⟩ := run_pure_eq_ok.mp h
      cases hfate
  | some name =>
      rw [hname] at h
      cases hread : e.read with
      | error fault =>
          rw [hread] at h
          exact absurd h run_throw_ne_ok
      | ok bytes =>
          rw [hread] at h
          obtain ⟨_, hdata⟩ := Entry.read_eq_ok.mp hread
          obtain ⟨applied, s₁, happlied, h⟩ := run_bind_eq_ok.mp h
          have happlied := eq_of_run_lift happlied
          cases applied with
          | ok output? =>
              cases output? with
              | none =>
                  obtain ⟨hfate, _⟩ := run_pure_eq_ok.mp h
                  cases hfate
              | some output =>
                  obtain ⟨hfate, _⟩ := run_pure_eq_ok.mp h
                  cases hfate
          | error error =>
              dsimp only at h
              split at h
              · next hdecode =>
                  obtain ⟨hfate, _⟩ := run_pure_eq_ok.mp h
                  injection hfate with hfate
                  refine ⟨hfate.symm, name, error, rfl, ?_, hdecode⟩
                  rw [hdata, happlied]
              · exact absurd h run_throw_ne_ok

/-- A name in the report's list of undecodable entries is the name of an entry
that is in the new archive with its own data, and whose application failed to
decode it. -/
theorem Archive.entry_of_mem_undecodable {a out : Archive} {report : Report}
    {s s' : τ} (h : (a.transform apply).run s = (.ok (out, report), s'))
    {n : String} (hn : n ∈ report.undecodable) :
    ∃ e s₁ name error, Reaches apply a.entries s e s₁ ∧ e.name = n ∧
      e.asRegular ∈ out.entries ∧
      e.className? = some name ∧ (apply e.data name s₁).1 = .error error ∧
      error.isDecodeFailure = true := by
  unfold Archive.transform at h
  obtain ⟨fates, t, hfates, h⟩ := run_bind_eq_ok.mp h
  obtain ⟨hpair, _⟩ := run_pure_eq_ok.mp h
  injection hpair with hout hreport
  rw [← hreport] at hn
  rw [← hout]
  obtain ⟨fate, hfate, hnamed⟩ := List.mem_filterMap.mp hn
  cases fate with
  | undecodable u =>
      injection hnamed with hnamed
      obtain ⟨e, s₁, s₂, hreaches, he⟩ := reaches_of_mem_fates hfates hfate
      obtain ⟨hu, name, error, hname, herror, hdecode⟩ :=
        Entry.transform_eq_undecodable he
      rw [hu] at hfate hnamed
      refine ⟨e, s₁, name, error, hreaches, hnamed, ?_, hname, herror, hdecode⟩
      exact List.mem_filterMap.mpr ⟨_, hfate, rfl⟩
  | copied u => cases hnamed
  | transformed u => cases hnamed
  | dropped m => cases hnamed

end Entries

end ClassLoom
