import ClassLoom.Proofs.ArchiveRun
import ClassLoom.Proofs.ChainRun

/-!
# Who is blamed for a class that cannot be decoded

A transformer that leaves an invalid class behind is meant to be found out at
once, by the verification and the encoding that follow its edit, and not by the
decoder of whoever comes next. The version of a class escapes both: the structural
rules do not look at it, and any version can be written. So a transformer may
leave a class behind that is too new to be read again, and the next decoder takes
it for bad input, or nobody does and the bytes go out.

This file proves that the version is the only thing that escapes. `LeavesTooNew`
says of a run that a transformer left a class behind that passed as valid and is too
new. A decode failure is either the fault of the bytes that came in or due to such
a class (`applyAll_eq_decode`), and what comes out can be read again unless the last
transformer left one (`leaves_of_applyAll_eq_some`).
-/

namespace ClassLoom

namespace Transformer

variable {σ τ : Type} {host : Host σ (StateM τ)} {options : WriterOptions}
  {context : Context}
  {ts : List (Transformer σ)} {bytes : Bytes} {s : τ}

/-- In a run on `bytes` from the state `s`, a transformer with `after` behind it
leaves a class behind that is written without objection and is too new to be
read again. -/
def LeavesTooNew (host : Host σ (StateM τ)) (options : WriterOptions)
    (context : Context) (ts : List (Transformer σ)) (bytes : Bytes) (s : τ)
    (after : List (Transformer σ)) : Prop :=
  ∃ c output, Leaves host options context ts bytes s c after ∧
    c.encodeValid options = .ok output ∧ c.majorVersion > Class.maxMajorVersion

theorem LeavesTooNew.later {t : Transformer σ} {after : List (Transformer σ)}
    {output : Bytes} {s' : τ} {c kept : Class}
    (hbytes : Class.decodeValid bytes = .ok c)
    (hcall : t.call host context c s = (.keep kept, s'))
    (hencode : kept.encodeValid options = .ok output)
    (h : LeavesTooNew host options context ts output s' after) :
    LeavesTooNew host options context (t :: ts) bytes s after := by
  obtain ⟨last, written, hleaves, hrest⟩ := h
  exact ⟨last, written, .later hbytes hcall hencode hleaves, hrest⟩

/-- A decode failure comes from the bytes or from a class that is too new. -/
theorem applyAll_eq_decode {n : String} {cause : ClassFileError}
    (h : (applyAll host options context ts bytes s).1 = .error (.decode n cause)) :
    Class.decodeValid bytes = .error cause ∨
      ∃ after, after ≠ [] ∧
        LeavesTooNew host options context ts bytes s after := by
  induction ts generalizing bytes s with
  | nil => cases h
  | cons t ts ih =>
      cases hbytes : Class.decodeValid bytes with
      | error fault =>
          rw [applyAll_of_decodeValid_error host options context ts hbytes] at h
          cases h
          exact Or.inl rfl
      | ok c =>
          refine Or.inr ?_
          obtain ⟨outcome, s', hcall⟩ := t.exists_call host context c s
          rw [applyAll_of_call host options context ts hbytes hcall] at h
          split at h
          · next output hconclude =>
              obtain ⟨kept, hkept, hencode⟩ :=
                t.conclude_eq_some context.name hconclude
              rw [hkept] at hcall
              -- What fails to decode behind the first transformer is its doing,
              -- or that of a later one.
              rcases ih h with houtput | hlater
              · have hnew := Class.decodeValid_of_encodeValid hencode
                rw [houtput] at hnew
                split at hnew
                · cases hnew
                · next hgt =>
                    refine ⟨ts, ?_, kept, output, .here hbytes hcall, hencode, ?_⟩
                    · intro hnil
                      rw [hnil] at h
                      cases h
                    · exact UInt16.not_le.mp hgt
              · obtain ⟨after, hafter, htooNew⟩ := hlater
                exact ⟨after, hafter, htooNew.later hbytes hcall hencode⟩
          · exact absurd h (t.conclude_ne_decode context.name)

/-- What comes out was left behind by the last transformer. -/
theorem leaves_of_applyAll_eq_some {output : Bytes} (hts : ts ≠ [])
    (h : (applyAll host options context ts bytes s).1 = .ok (some output)) :
    ∃ c, Leaves host options context ts bytes s c [] ∧
      c.encodeValid options = .ok output := by
  induction ts generalizing bytes s with
  | nil => exact absurd rfl hts
  | cons t ts ih =>
      cases hbytes : Class.decodeValid bytes with
      | error fault =>
          rw [applyAll_of_decodeValid_error host options context ts hbytes] at h
          cases h
      | ok c =>
          obtain ⟨outcome, s', hcall⟩ := t.exists_call host context c s
          rw [applyAll_of_call host options context ts hbytes hcall] at h
          split at h
          · next written hconclude =>
              obtain ⟨kept, hkept, hencode⟩ :=
                t.conclude_eq_some context.name hconclude
              rw [hkept] at hcall
              cases ts with
              | nil =>
                  injection h with h
                  injection h with h
                  rw [h] at hencode
                  exact ⟨kept, .here hbytes hcall, hencode⟩
              | cons next rest =>
                  obtain ⟨last, hlast, hlastEncode⟩ :=
                    ih (List.cons_ne_nil next rest) h
                  exact ⟨last, .later hbytes hcall hencode hlast, hlastEncode⟩
          · next hfinal =>
              exact absurd h (hfinal output)

/-- A class that is too new shows: it goes out and cannot be read, or the next
transformer fails to decode it. -/
theorem applyAll_of_leavesTooNew {after : List (Transformer σ)}
    (h : LeavesTooNew host options context ts bytes s after) :
    ∃ major minor,
      (after = [] ∧ ∃ output,
        (applyAll host options context ts bytes s).1 = .ok (some output) ∧
          Class.decodeValid output = .error (.unsupportedVersion major minor)) ∨
      (after ≠ [] ∧
        (applyAll host options context ts bytes s).1 =
          .error (.decode context.name.dotted
            (.unsupportedVersion major minor))) := by
  obtain ⟨c, output, hleaves, hencode, hnew⟩ := h
  obtain ⟨s', hrun⟩ := hleaves.applyAll_eq hencode
  have houtput := Class.decodeValid_of_encodeValid hencode
  rw [if_neg (UInt16.not_le.mpr hnew)] at houtput
  rw [hrun]
  refine ⟨c.majorVersion, c.minorVersion, ?_⟩
  cases after with
  | nil => exact Or.inl ⟨rfl, output, rfl, houtput⟩
  | cons next rest =>
      refine Or.inr ⟨List.cons_ne_nil next rest, ?_⟩
      rw [applyAll_of_decodeValid_error host options context rest houtput]

theorem LeavesTooNew.decodeValid_ok {after : List (Transformer σ)}
    (h : LeavesTooNew host options context ts bytes s after) :
    ∃ c, Class.decodeValid bytes = .ok c := by
  obtain ⟨c, output, hleaves, _⟩ := h
  exact hleaves.decodeValid_ok

end Transformer

namespace Chain

open Transformer (LeavesTooNew)

variable {σ τ : Type}

/-- What a run of a chain promises about decode failures: they are the fault of
the bytes that came in, and what comes out causes none. -/
structure Fair (host : Host σ (StateM τ)) (chain : Chain σ) (bytes : Bytes)
    (name : ClassName) (s : τ) : Prop where
  input : ∀ n cause,
    (chain.applyWith host bytes name s).1 = .error (.decode n cause) →
      Class.decodeValid bytes = .error cause
  output : ∀ out, (chain.applyWith host bytes name s).1 = .ok (some out) →
    ∃ c, Class.decodeValid out = .ok c

theorem fair_of_not_leavesTooNew {host : Host σ (StateM τ)} {chain : Chain σ}
    {bytes : Bytes} {name : ClassName} {s : τ}
    (hlive : chain.isExempt name = false)
    (hknown : ∀ after,
      ¬ LeavesTooNew host chain.options (.plain name) chain.transformers bytes s after) :
    chain.Fair host bytes name s := by
  refine ⟨?_, ?_⟩
  · intro n cause h
    rw [applyWith_of_not_exempt host hlive] at h
    rcases Transformer.applyAll_eq_decode h with hbytes | htooNew
    · exact hbytes
    · obtain ⟨after, _, htooNew⟩ := htooNew
      exact absurd htooNew (hknown after)
  · intro out h
    rw [applyWith_of_not_exempt host hlive] at h
    obtain ⟨c, hleaves, hencode⟩ :=
      Transformer.leaves_of_applyAll_eq_some (transformers_ne_nil hlive) h
    by_cases hle : c.majorVersion ≤ Class.maxMajorVersion
    · refine ⟨chain.options.prepare c, ?_⟩
      rw [Class.decodeValid_of_encodeValid hencode, if_pos hle]
    · exact absurd ⟨c, out, hleaves, hencode, UInt16.not_le.mp hle⟩ (hknown [])

theorem not_leavesTooNew_of_fair {host : Host σ (StateM τ)} {chain : Chain σ}
    {bytes : Bytes} {name : ClassName} {s : τ}
    (hlive : chain.isExempt name = false) (hfair : chain.Fair host bytes name s)
    (after : List (Transformer σ)) :
    ¬ LeavesTooNew host chain.options (.plain name) chain.transformers bytes s
      after := by
  intro h
  obtain ⟨c, hbytes⟩ := h.decodeValid_ok
  obtain ⟨major, minor, hshows⟩ := Transformer.applyAll_of_leavesTooNew h
  rw [← applyWith_of_not_exempt host hlive] at hshows
  rcases hshows with ⟨_, out, hout, hunread⟩ | ⟨_, hfailed⟩
  · obtain ⟨c', hread⟩ := hfair.output out hout
    rw [hunread] at hread
    cases hread
  · have hblamed := hfair.input _ _ hfailed
    rw [hbytes] at hblamed
    cases hblamed

/-- A chain keeps its promise about decode failures in exactly those runs in
which no transformer leaves a class behind that is too new, and an archive lists
an entry as undecodable only if the entry's own data was, or if such a class was
left behind in the run on the entry. -/
theorem fair_iff_not_leavesTooNew (host : Host σ (StateM τ)) (chain : Chain σ) :
    (∀ bytes name s, chain.isExempt name = false →
      (chain.Fair host bytes name s ↔ ∀ after,
        ¬ LeavesTooNew host chain.options (.plain name) chain.transformers bytes s
          after)) ∧
    (∀ (a out : Archive) (report : Report) (s s' : τ),
      (a.transform (chain.applyWith host)).run s = (.ok (out, report), s') →
        ∀ n ∈ report.undecodable, ∃ e s₁ name,
          Reaches (chain.applyWith host) a.entries s e s₁ ∧ e.name = n ∧
          e.asRegular ∈ out.entries ∧ e.className? = some name ∧
          ((∃ cause, Class.decodeValid e.data = .error cause) ∨
            ∃ after, after ≠ [] ∧
              LeavesTooNew host chain.options (.plain name) chain.transformers
                e.data s₁ after)) := by
  refine ⟨?_, ?_⟩
  · intro bytes name s hlive
    constructor
    · intro hfair
      exact not_leavesTooNew_of_fair hlive hfair
    · intro hknown
      exact fair_of_not_leavesTooNew hlive hknown
  · intro a out report s s' h n hn
    obtain ⟨e, s₁, name, error, hreaches, hname, hout, hclass, herror, hdecode⟩ :=
      Archive.entry_of_mem_undecodable h hn
    refine ⟨e, s₁, name, hreaches, hname, hout, hclass, ?_⟩
    cases error with
    | decode n cause =>
        cases hexempt : chain.isExempt name with
        | true =>
            unfold applyWith at herror
            rw [hexempt] at herror
            cases herror
        | false =>
            rw [applyWith_of_not_exempt host hexempt] at herror
            rcases Transformer.applyAll_eq_decode herror with hbytes | htooNew
            · exact Or.inl ⟨cause, hbytes⟩
            · exact Or.inr htooNew
    | transform _ _ _ => cases hdecode
    | notFound _ => cases hdecode
    | io _ => cases hdecode
    | archive _ => cases hdecode

/-- A chain of one transformer, which leaves every class as it is. -/
def idle : Chain Unit := .ofTransformers [.editing "idle" id]

theorem not_leavesTooNew_idle (bytes : Bytes) (name : ClassName)
    (after : List (Transformer Unit)) :
    ¬ LeavesTooNew .alone idle.options (.plain name) idle.transformers bytes ()
      after := by
  intro h
  obtain ⟨c, output, hleaves, _, hnew⟩ := h
  refine UInt16.not_le.mpr hnew ?_
  refine Transformer.Leaves.majorVersion_le_of_editing [("idle", id)] ?_ hleaves
  simp

/-- An archive with a class file that is none. -/
def unreadable : Archive := ⟨"", [⟨"A.class", [], true, .stored, .epoch, 0⟩]⟩

theorem fair_idle :
    idle.isExempt (ClassName.of "A") = false ∧
      idle.Fair .alone (Class.announcedBy 1) (ClassName.of "A") () ∧
      (unreadable.transform (idle.applyWith .alone)).run () =
        (.ok (⟨"", unreadable.entries.map Entry.asRegular⟩,
          ⟨[], [], 0, ["A.class"]⟩), ()) ∧
      ∃ e : Entry, e.name = "A.class" ∧
        ∃ cause, Class.decodeValid e.data = .error cause := by
  obtain ⟨hfair, harchive⟩ := fair_iff_not_leavesTooNew Host.alone idle
  have hrun : (unreadable.transform (idle.applyWith .alone)).run () =
      (.ok (⟨"", unreadable.entries.map Entry.asRegular⟩,
        ⟨[], [], 0, ["A.class"]⟩), ()) := by
    refine Prod.ext ?_ (Subsingleton.elim _ _)
    decide +kernel
  refine ⟨rfl, ?_, hrun, ?_⟩
  · exact (hfair _ _ _ rfl).mpr (not_leavesTooNew_idle _ _)
  · obtain ⟨e, _, name, _, hname, _, _, hfault⟩ :=
      harchive unreadable _ _ () () hrun "A.class" List.mem_cons_self
    refine ⟨e, hname, ?_⟩
    rcases hfault with hbad | ⟨after, _, htooNew⟩
    · exact hbad
    · exact absurd htooNew (not_leavesTooNew_idle _ _ after)

/-- A chain whose first transformer marks every class as too new. -/
def bumping : Chain Unit :=
  .ofTransformers
    [.editing "bump" fun c => { c with majorVersion := 66 }, .editing "idle" id]

/-- The promise can be broken: the class is good and the first transformer
spoils it, and the error says that the class could not be decoded. -/
theorem bumping_not_fair :
    Class.decodeValid (Class.announcedBy 1) = .ok (Class.new "A") ∧
      (bumping.apply (Class.announcedBy 1) "A" ()).1 =
        .error (.decode "A" (.unsupportedVersion 66 0)) ∧
      ¬ bumping.Fair .alone (Class.announcedBy 1) (ClassName.of "A") () := by
  have hgood : Class.decodeValid (Class.announcedBy 1) = .ok (Class.new "A") := by
    decide +kernel
  have hblamed : (bumping.apply (Class.announcedBy 1) "A" ()).1 =
      .error (.decode "A" (.unsupportedVersion 66 0)) := by
    decide +kernel
  refine ⟨hgood, hblamed, ?_⟩
  intro hfair
  have hinput := hfair.input "A" (.unsupportedVersion 66 0) hblamed
  rw [hgood] at hinput
  cases hinput

end Chain

end ClassLoom
