import ClassLoom.Proofs.ArchiveRun
import Mathlib.Data.List.Basic

/-!
# What a transformed archive holds

Transforming an archive stops at the first entry that cannot be dealt with, and
until then it turns one entry after the other into its fate. This file describes
the result without fates and without stopping. `Entry.treat` asks the application
for what it makes of an entry, whatever that is, and `Treated` keeps the answer
beside the entry. An archive can be transformed just when every answer can be lived
with, and then the new archive and the report are read off the answers, in the
order of the entries (`transform_eq_ok_iff`).

The application may remember what it was given, so the answers are those of one
run over all entries from the first to the last.
-/

namespace ClassLoom

/-- An entry of an archive and what an application made of its data: nothing if
the entry is none of its business. -/
structure Treated where
  entry : Entry
  outcome : Option Applied

namespace Treated

/-- The entry of the new archive, if there is one: new data if the application
gave some, and none if it vetoed the class. -/
def result? (t : Treated) : Option Entry :=
  match t.outcome with
  | some (.ok (some output)) => some { t.entry.asRegular with data := output }
  | some (.ok none) => none
  | some (.error _) => some t.entry.asRegular
  | none => some t.entry.asRegular

/-- Whether the application gave new data. -/
def isTransformed (t : Treated) : Bool :=
  t.outcome matches some (.ok (some _))

/-- Whether the application vetoed the class. -/
def isDropped (t : Treated) : Bool :=
  t.outcome matches some (.ok none)

/-- Whether the application could not decode the data. -/
def isUndecodable (t : Treated) : Bool :=
  t.outcome matches some (.error (.decode ..))

/-- Whether the entry did not go through the application. -/
def isCopied (t : Treated) : Bool :=
  t.outcome.isNone

/-- Whether the entry lets the rest of the archive be transformed: what the
application was given was intact, and if it failed it failed to decode that. -/
def IsSettled (t : Treated) : Prop :=
  t.outcome = none ∨ t.entry.intact = true ∧
    (t.isTransformed ∨ t.isDropped ∨ t.isUndecodable)

/-- The fate that the answer amounts to. -/
def fate (t : Treated) : Fate :=
  match t.outcome with
  | some (.ok (some output)) => .transformed { t.entry.asRegular with data := output }
  | some (.ok none) => .dropped t.entry.name
  | some (.error _) => .undecodable t.entry.asRegular
  | none => .copied t.entry.asRegular

end Treated

/-- Asks an application for what it makes of an entry. -/
def Entry.treat {m : Type → Type} [Monad m] (apply : Application m) (e : Entry) : m Treated :=
  match e.className? with
  | none => pure ⟨e, none⟩
  | some name => do return ⟨e, some (← apply e.data name)⟩

/-! ## One entry -/

section Entries

variable {τ : Type} {apply : Application (StateM τ)}

/-- An entry stays out of the application if it is a directory, no class file, or
a descriptor. -/
theorem Entry.className?_eq_none_iff (e : Entry) :
    e.className? = none ↔
      e.isDirectory = true ∨ ¬ ClassName.suffix.toList <:+ e.name.toList ∨
        Entry.isDescriptor e.name = true := by
  unfold Entry.className? ClassName.ofResourcePath? ClassName.dropEnding?
  cases e.isDirectory <;> cases Entry.isDescriptor e.name <;> simp

theorem ran_eq_ok_iff {ε α : Type} {x : Except ε α} {a : α} {s s' : τ} :
    ((x, s) : Id (Except ε α × τ)) = (.ok a, s') ↔ x = .ok a ∧ s = s' := by
  show ((x, s) : Except ε α × τ) = (.ok a, s') ↔ _
  rw [Prod.mk.injEq]

theorem run_lift_bind {ε α β : Type} {act : StateM τ α} {f : α → ExceptT ε (StateM τ) β} {s : τ} :
    ((ExceptT.lift act : ExceptT ε (StateM τ) α) >>= f).run s = (f (act s).1).run (act s).2 := rfl

theorem Entry.treat_of_none {e : Entry} (hname : e.className? = none) (s : τ) :
    e.treat apply s = (⟨e, none⟩, s) := by
  unfold Entry.treat
  rw [hname]
  rfl

theorem Entry.treat_of_some {e : Entry} {name : ClassName} (hname : e.className? = some name)
    (s : τ) :
    e.treat apply s = (⟨e, some (apply e.data name s).1⟩, (apply e.data name s).2) := by
  unfold Entry.treat
  rw [hname]
  rfl

theorem Entry.transform_of_none {e : Entry} (hname : e.className? = none) (s : τ) :
    (e.transform apply).run s = (.ok (.copied e.asRegular), s) := by
  unfold Entry.transform
  rw [hname]
  rfl

theorem Entry.transform_of_damaged {e : Entry} {name : ClassName}
    (hname : e.className? = some name) (hdata : e.intact = false) (s : τ) :
    (e.transform apply).run s = (.error (.io .badChecksum), s) := by
  unfold Entry.transform Entry.read
  rw [hname, hdata]
  rfl

theorem Entry.transform_of_intact {e : Entry} {name : ClassName}
    (hname : e.className? = some name) (hdata : e.intact = true) (s : τ) :
    (e.transform apply).run s =
      (match (apply e.data name s).1 with
        | .ok (some output) => .ok (.transformed { e.asRegular with data := output })
        | .ok none => .ok (.dropped e.name)
        | .error error =>
          if error.isDecodeFailure then .ok (.undecodable e.asRegular) else .error error,
        (apply e.data name s).2) := by
  unfold Entry.transform Entry.read
  rw [hname, hdata]
  dsimp only
  rw [if_pos rfl]
  dsimp only
  rw [run_lift_bind]
  match (apply e.data name s).1 with
  | .ok (some output) => rfl
  | .ok none => rfl
  | .error error =>
      dsimp only
      split
      · rfl
      · rfl

/-- An entry can be transformed just when its answer is settled, and then the
answer says what becomes of it. -/
theorem Entry.transform_eq_ok_iff {e : Entry} {fate : Fate} {s s' : τ} :
    (e.transform apply).run s = (.ok fate, s') ↔
      (e.treat apply s).1.IsSettled ∧ (e.treat apply s).1.fate = fate ∧
        (e.treat apply s).2 = s' := by
  cases hname : e.className? with
  | none =>
      rw [Entry.transform_of_none hname, Entry.treat_of_none hname, ran_eq_ok_iff]
      simp [Treated.IsSettled, Treated.fate]
  | some name =>
      rw [Entry.treat_of_some hname]
      cases hdata : e.intact with
      | false =>
          rw [Entry.transform_of_damaged hname hdata, ran_eq_ok_iff]
          simp [Treated.IsSettled, hdata]
      | true =>
          rw [Entry.transform_of_intact hname hdata, ran_eq_ok_iff]
          match (apply e.data name s).1 with
          | .ok (some output) =>
              simp [Treated.IsSettled, Treated.fate, Treated.isTransformed, hdata]
          | .ok none =>
              simp [Treated.IsSettled, Treated.fate, Treated.isDropped, hdata]
          | .error error =>
              cases error <;>
                simp [Treated.IsSettled, Treated.fate, Treated.isTransformed, Treated.isDropped,
                  Treated.isUndecodable, PipelineError.isDecodeFailure, hdata]

/-- Asks an application for what it makes of entries, one after the other. -/
def treatAll (apply : Application (StateM τ)) (entries : List Entry) : StateM τ (List Treated) :=
  entries.mapM (Entry.treat apply)

theorem treatAll_nil (s : τ) : treatAll apply [] s = ([], s) := rfl

theorem treatAll_cons (e : Entry) (es : List Entry) (s : τ) :
    treatAll apply (e :: es) s =
      ((e.treat apply s).1 :: (treatAll apply es (e.treat apply s).2).1,
        (treatAll apply es (e.treat apply s).2).2) := by
  unfold treatAll
  rw [List.mapM_cons]
  rfl

/-- All entries can be transformed just when each of their answers is settled. -/
theorem mapM_transform_eq_ok_iff {entries : List Entry} {fates : List Fate} {s s' : τ} :
    (entries.mapM (Entry.transform apply)).run s = (.ok fates, s') ↔
      (∀ t ∈ (treatAll apply entries s).1, t.IsSettled) ∧
        (treatAll apply entries s).1.map Treated.fate = fates ∧
        (treatAll apply entries s).2 = s' := by
  induction entries generalizing fates s s' with
  | nil =>
      rw [List.mapM_nil, treatAll_nil, run_pure_eq_ok]
      simp
  | cons e es ih =>
      rw [List.mapM_cons, treatAll_cons, run_bind_eq_ok, List.forall_mem_cons, List.map_cons]
      constructor
      · intro h
        obtain ⟨fate, s₁, hfirst, h⟩ := h
        obtain ⟨others, s₂, hothers, h⟩ := run_bind_eq_ok.mp h
        obtain ⟨hfates, hs⟩ := run_pure_eq_ok.mp h
        obtain ⟨hsettled, hfate, hs₁⟩ := Entry.transform_eq_ok_iff.mp hfirst
        rw [← hs₁] at hothers
        obtain ⟨hall, hmap, hs₂⟩ := ih.mp hothers
        exact ⟨⟨hsettled, hall⟩, by rw [hfate, hmap, hfates], by rw [hs₂, hs]⟩
      · intro h
        obtain ⟨⟨hsettled, hall⟩, hmap, hs⟩ := h
        refine ⟨_, _, Entry.transform_eq_ok_iff.mpr ⟨hsettled, rfl, rfl⟩, ?_⟩
        refine run_bind_eq_ok.mpr ⟨_, _, ih.mpr ⟨hall, rfl, rfl⟩, ?_⟩
        exact run_pure_eq_ok.mpr ⟨hmap, hs⟩

end Entries

/-! ## Reading off the result -/

namespace Treated

theorem entry?_fate (t : Treated) : t.fate.entry? = t.result? := by
  obtain ⟨e, outcome⟩ := t
  match outcome with
  | none | some (.ok none) | some (.ok (some _)) | some (.error _) => rfl

theorem transformed?_fate (t : Treated) :
    t.fate.transformed? = if t.isTransformed then some t.entry.name else none := by
  obtain ⟨e, outcome⟩ := t
  match outcome with
  | none | some (.ok none) | some (.ok (some _)) | some (.error _) => rfl

theorem dropped?_fate (t : Treated) :
    t.fate.dropped? = if t.isDropped then some t.entry.name else none := by
  obtain ⟨e, outcome⟩ := t
  match outcome with
  | none | some (.ok none) | some (.ok (some _)) | some (.error _) => rfl

/-- Only of a settled answer: an error other than a decode failure has no fate. -/
theorem undecodable?_fate {t : Treated} (h : t.IsSettled) :
    t.fate.undecodable? = if t.isUndecodable then some t.entry.name else none := by
  obtain ⟨e, outcome⟩ := t
  match outcome with
  | none | some (.ok none) | some (.ok (some _)) => rfl
  | some (.error (.decode ..)) => rfl
  | some (.error (.transform ..)) | some (.error (.notFound _)) | some (.error (.io _))
  | some (.error (.archive _)) =>
      simp [IsSettled, isTransformed, isDropped, isUndecodable] at h

theorem isCopied_fate (t : Treated) : t.fate.isCopied = t.isCopied := by
  obtain ⟨e, outcome⟩ := t
  match outcome with
  | none | some (.ok none) | some (.ok (some _)) | some (.error _) => rfl

/-- The report on a list of answers: the names of each kind, in order, and the
number of entries that did not go through the application. -/
def report (treated : List Treated) : Report where
  transformed := (treated.filter isTransformed).map fun t => t.entry.name
  dropped := (treated.filter isDropped).map fun t => t.entry.name
  copied := treated.countP isCopied
  undecodable := (treated.filter isUndecodable).map fun t => t.entry.name

theorem ofFates_fate {treated : List Treated} (h : ∀ t ∈ treated, t.IsSettled) :
    Report.ofFates (treated.map fate) = report treated := by
  have hnames : ∀ (f : Fate → Option String) (p : Treated → Bool),
      (∀ t ∈ treated, f t.fate = if p t then some t.entry.name else none) →
        (treated.map fate).filterMap f = (treated.filter p).map fun t => t.entry.name := by
    intro f p hf
    rw [List.filterMap_map, ← List.filterMap_eq_map, List.filterMap_filter]
    exact List.filterMap_congr hf
  unfold Report.ofFates report
  rw [hnames _ isTransformed fun t _ => t.transformed?_fate,
    hnames _ isDropped fun t _ => t.dropped?_fate,
    hnames _ isUndecodable fun t ht => undecodable?_fate (h t ht), List.countP_map]
  congr 1
  exact List.countP_congr fun t _ => by rw [Function.comp_apply, t.isCopied_fate]

end Treated

section Archives

variable {τ : Type} (apply : Application (StateM τ))

theorem entry_treatAll (entries : List Entry) (s : τ) :
    (treatAll apply entries s).1.map Treated.entry = entries := by
  induction entries generalizing s with
  | nil => rfl
  | cons e es ih =>
      rw [treatAll_cons, List.map_cons, ih]
      cases hname : e.className? with
      | none => rw [Entry.treat_of_none hname]
      | some name => rw [Entry.treat_of_some hname]

theorem isCopied_of_mem_treatAll {entries : List Entry} {s : τ} {t : Treated}
    (h : t ∈ (treatAll apply entries s).1) : t.isCopied = true ↔ t.entry.className? = none := by
  induction entries generalizing s with
  | nil => cases h
  | cons e es ih =>
      rw [treatAll_cons] at h
      rcases List.mem_cons.mp h with hhead | htail
      · rw [hhead]
        cases hname : e.className? with
        | none =>
            rw [Entry.treat_of_none hname]
            simp [Treated.isCopied, hname]
        | some name =>
            rw [Entry.treat_of_some hname]
            simp [Treated.isCopied, hname]
      · exact ih htail

theorem Archive.transform_eq_ok_iff {a out : Archive} {report : Report} {s s' : τ} :
    (a.transform apply).run s = (.ok (out, report), s') ↔
      ∃ treated, treatAll apply a.entries s = (treated, s') ∧ (∀ t ∈ treated, t.IsSettled) ∧
        out = ⟨"", treated.filterMap Treated.result?⟩ ∧ report = Treated.report treated := by
  have hout : ∀ treated : List Treated,
      Archive.ofFates (treated.map Treated.fate) = ⟨"", treated.filterMap Treated.result?⟩ := by
    intro treated
    unfold Archive.ofFates
    rw [List.filterMap_map]
    congr 1
    exact List.filterMap_congr fun t _ => t.entry?_fate
  unfold Archive.transform
  rw [run_bind_eq_ok]
  constructor
  · intro h
    obtain ⟨fates, s₁, hfates, h⟩ := h
    obtain ⟨hresult, hs⟩ := run_pure_eq_ok.mp h
    cases hresult
    obtain ⟨hsettled, hmap, hs₁⟩ := mapM_transform_eq_ok_iff.mp hfates
    refine ⟨_, Prod.ext rfl (hs₁.trans hs), hsettled, ?_, ?_⟩
    · rw [← hmap, hout]
    · rw [← hmap, Treated.ofFates_fate hsettled]
  · intro h
    obtain ⟨treated, hrun, hsettled, rfl, rfl⟩ := h
    have htreated : (treatAll apply a.entries s).1 = treated := by rw [hrun]
    have hs : (treatAll apply a.entries s).2 = s' := by rw [hrun]
    refine ⟨treated.map Treated.fate, s', ?_, run_pure_eq_ok.mpr ⟨?_, rfl⟩⟩
    · exact mapM_transform_eq_ok_iff.mpr ⟨by rwa [htreated], by rw [htreated], hs⟩
    · rw [hout, Treated.ofFates_fate hsettled]

theorem Container.transform_eq_ok_iff {c : Container} {r : Archive × Report} {s s' : τ} :
    (c.transform apply).run s = (.ok r, s') ↔
      ∃ a, c.open? = .ok a ∧ (a.transform apply).run s = (.ok r, s') := by
  unfold Container.transform
  cases c.open? with
  | error fault =>
      constructor
      · intro h
        exact absurd h run_throw_ne_ok
      · intro h
        obtain ⟨a, ha, -⟩ := h
        cases ha
  | ok a => simp

end Archives

end ClassLoom
