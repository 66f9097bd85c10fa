import ClassLoom.Proofs.ArchiveInPlace
import ClassLoom.Proofs.ChainRun

/-!
# Which entries of an archive bypass the transformers

Descriptors of modules and packages are no classes, although their files end like those of
classes, so a transformed archive keeps them as they are. What an entry is, is told by its
path alone, and there are two ways to read a path. `NamesDescriptor` looks at what follows
the last slash. `MentionsDescriptor` looks for the name of a descriptor anywhere in the path,
in its folders and inside longer names, and this is the one that decides.

`Archive.HandsOver` is what the report on an archive promises, for either reading: all
entries but those that it spares are handed to the application and are listed by what came
of them, and the spared ones alone are counted as copied. It holds of the reading that
decides. Of the other it holds as long as no class is taken for a descriptor, and the
difference is a class that is shipped as it came in, without an error or a line of its own.
-/

namespace ClassLoom

/-! ## Paths -/

theorem occursIn_iff {text part : List Char} : occursIn text part = true ↔ part <:+: text := by
  induction text with
  | nil => simp [occursIn]
  | cons c text ih =>
      rw [occursIn, Bool.or_eq_true, List.isPrefixOf_iff_prefix, ih, List.infix_cons_iff]

namespace Entry

/-- The files that describe modules and packages. -/
def descriptorFiles : List String := ["module-info.class", "package-info.class"]

/-- What follows the last slash of the path names a descriptor. -/
def NamesDescriptor (path : String) : Prop :=
  ∃ file ∈ descriptorFiles, path = file ∨ '/' :: file.toList <:+ path.toList

/-- The name of a descriptor occurs somewhere in the path. -/
def MentionsDescriptor (path : String) : Prop :=
  "module-info".toList <:+: path.toList ∨ "package-info".toList <:+: path.toList

instance : DecidablePred NamesDescriptor := fun _ =>
  inferInstanceAs (Decidable (∃ file ∈ descriptorFiles, _))

instance : DecidablePred MentionsDescriptor := fun _ =>
  inferInstanceAs (Decidable (_ ∨ _))

theorem isDescriptor_iff {path : String} : isDescriptor path = true ↔ MentionsDescriptor path := by
  unfold isDescriptor MentionsDescriptor
  rw [Bool.or_eq_true, occursIn_iff, occursIn_iff]

theorem NamesDescriptor.mentions {path : String} (h : NamesDescriptor path) :
    MentionsDescriptor path := by
  obtain ⟨file, hfile, hpath⟩ := h
  have hinfix : file.toList <:+: path.toList := by
    rcases hpath with rfl | hsuffix
    · exact List.infix_rfl
    · exact (List.suffix_cons _ _).isInfix.trans hsuffix.isInfix
  have hfiles : file = "module-info.class" ∨ file = "package-info.class" := by
    simpa [descriptorFiles] using hfile
  rcases hfiles with rfl | rfl
  · exact .inl (List.IsInfix.trans (by decide) hinfix)
  · exact .inr (List.IsInfix.trans (by decide) hinfix)

/-- The entry is a file of a class, going by its path. -/
def IsClassFile (e : Entry) : Prop :=
  e.isDirectory = false ∧ ClassName.suffix.toList <:+ e.name.toList

/-- The entry is none for an application, if `descriptor` tells which paths are those of
descriptors. -/
def Spared (descriptor : String → Prop) (e : Entry) : Prop :=
  ¬ e.IsClassFile ∨ descriptor e.name

instance (e : Entry) : Decidable e.IsClassFile :=
  inferInstanceAs (Decidable (_ ∧ _))

instance (descriptor : String → Prop) [DecidablePred descriptor] :
    DecidablePred (Spared descriptor) := fun _ =>
  inferInstanceAs (Decidable (_ ∨ _))

theorem className?_eq_none_iff_spared (e : Entry) :
    e.className? = none ↔ e.Spared MentionsDescriptor := by
  rw [className?_eq_none_iff, isDescriptor_iff]
  unfold Spared IsClassFile
  rw [not_and_or, Bool.not_eq_false, or_assoc]

theorem ofResourcePath?_of_className? {e : Entry} {name : ClassName}
    (h : e.className? = some name) : ClassName.ofResourcePath? e.name = some name := by
  unfold className? at h
  split at h
  · cases h
  · exact h

end Entry

/-! ## One entry -/

section Entries

variable {τ : Type} {apply : Application (StateM τ)}

/-- The entry is handed to the application in the state `s`, with its data and the class of
its path, and this comes of it. Only damaged data cannot be handed on, and ends the run. -/
inductive Entry.HandedOver (apply : Application (StateM τ)) (e : Entry) (s : τ) :
    Except PipelineError Fate × τ → Prop
  | damaged (hdata : e.intact = false) : HandedOver apply e s (.error (.io .badChecksum), s)
  | transformed {name : ClassName} {output : Bytes} {s' : τ}
      (hname : ClassName.ofResourcePath? e.name = some name) (hdata : e.intact = true)
      (happlied : apply e.data name s = (.ok (some output), s')) :
      HandedOver apply e s (.ok (.transformed { e.asRegular with data := output }), s')
  | dropped {name : ClassName} {s' : τ}
      (hname : ClassName.ofResourcePath? e.name = some name) (hdata : e.intact = true)
      (happlied : apply e.data name s = (.ok none, s')) :
      HandedOver apply e s (.ok (.dropped e.name), s')
  | undecodable {name : ClassName} {error : PipelineError} {s' : τ}
      (hname : ClassName.ofResourcePath? e.name = some name) (hdata : e.intact = true)
      (happlied : apply e.data name s = (.error error, s'))
      (hdecode : error.isDecodeFailure = true) :
      HandedOver apply e s (.ok (.undecodable e.asRegular), s')
  | refused {name : ClassName} {error : PipelineError} {s' : τ}
      (hname : ClassName.ofResourcePath? e.name = some name) (hdata : e.intact = true)
      (happlied : apply e.data name s = (.error error, s'))
      (hdecode : error.isDecodeFailure = false) :
      HandedOver apply e s (.error error, s')

theorem Entry.HandedOver.ne_copied {e c : Entry} {s s' : τ} :
    ¬ e.HandedOver apply s (.ok (.copied c), s') := by
  rintro ⟨⟩

theorem Entry.handedOver_of_className? {e : Entry} {name : ClassName}
    (hname : e.className? = some name) (s : τ) :
    e.HandedOver apply s ((e.transform apply).run s) := by
  have hpath := e.ofResourcePath?_of_className? hname
  cases hdata : e.intact with
  | false =>
      rw [Entry.transform_of_damaged hname hdata]
      exact .damaged hdata
  | true =>
      rw [Entry.transform_of_intact hname hdata]
      obtain ⟨answer, s', happlied⟩ : ∃ answer s', apply e.data name s = (answer, s') := ⟨_, _, rfl⟩
      rw [happlied]
      match answer with
      | .ok (some output) => exact .transformed hpath hdata happlied
      | .ok none => exact .dropped hpath hdata happlied
      | .error error =>
          dsimp only
          split
          · next hdecode => exact .undecodable hpath hdata happlied hdecode
          · next hdecode => exact .refused hpath hdata happlied (Bool.eq_false_iff.mpr hdecode)

/-! ## The run over an archive -/

theorem exists_reaches {entries : List Entry} {fates : List Fate} {s s' : τ}
    (h : (entries.mapM (Entry.transform apply)).run s = (.ok fates, s')) {e : Entry}
    (he : e ∈ entries) : ∃ s₁, Reaches apply entries s e s₁ := by
  induction entries generalizing fates s s' with
  | nil => cases he
  | cons first es ih =>
      rw [List.mapM_cons] at h
      obtain ⟨_, _, hfirst, h⟩ := run_bind_eq_ok.mp h
      obtain ⟨_, _, hothers, -⟩ := run_bind_eq_ok.mp h
      rcases List.mem_cons.mp he with rfl | he
      · exact ⟨s, reaches_head e es s⟩
      · obtain ⟨s₁, hreaches⟩ := ih hothers he
        exact ⟨s₁, reaches_cons hfirst hreaches⟩

/-- A run that reaches an entry ends with the error of that entry. -/
theorem Reaches.run_eq_error {entries : List Entry} {e : Entry} {error : PipelineError}
    {s s₁ s₂ : τ} (hreaches : Reaches apply entries s e s₁)
    (h : (e.transform apply).run s₁ = (.error error, s₂)) :
    (entries.mapM (Entry.transform apply)).run s = (.error error, s₂) := by
  obtain ⟨before, rest, fates, rfl, hbefore⟩ := hreaches
  rw [List.mapM_append]
  refine run_bind_eq_error.mpr (.inr ⟨fates, s₁, hbefore, ?_⟩)
  rw [List.mapM_cons]
  exact run_bind_eq_error.mpr (.inl (run_bind_eq_error.mpr (.inl h)))

/-- The entries that are listed by what came of them are those that were not copied. -/
theorem Treated.perm_of_settled {treated : List Treated} (h : ∀ t ∈ treated, t.IsSettled) :
    (treated.filter isTransformed ++ treated.filter isDropped ++
      treated.filter isUndecodable).Perm (treated.filter fun t => !t.isCopied) := by
  induction treated with
  | nil => exact .refl _
  | cons t ts ih =>
      obtain ⟨ht, hts⟩ := List.forall_mem_cons.mp h
      have hrest := ih hts
      obtain ⟨e, outcome⟩ := t
      -- The entry stands in front of those of its kind, on the right in front of all of them.
      match outcome with
      | none => exact hrest
      | some (.ok (some output)) => exact hrest.cons _
      | some (.ok none) =>
          rw [List.append_assoc] at hrest ⊢
          exact List.perm_middle.trans (hrest.cons _)
      | some (.error (.decode ..)) => exact List.perm_middle.trans (hrest.cons _)
      | some (.error (.transform ..)) | some (.error (.notFound _)) | some (.error (.io _))
      | some (.error (.archive _)) =>
          simp [IsSettled, isTransformed, isDropped, isUndecodable] at ht

end Entries

/-- Going over the archive, `descriptor` tells which paths are those of descriptors. All other
class files that the run reaches are handed to the application and are listed by what came of
them, or end the run with their error; the rest is copied and counted. -/
structure Archive.HandsOver {τ : Type} (descriptor : String → Prop) [DecidablePred descriptor]
    (apply : Application (StateM τ)) (a : Archive) (s : τ) : Prop where
  handed : ∀ e s₁, Reaches apply a.entries s e s₁ → ¬ e.Spared descriptor →
    e.HandedOver apply s₁ ((e.transform apply).run s₁)
  copied : ∀ e s₁, Reaches apply a.entries s e s₁ → e.Spared descriptor →
    (e.transform apply).run s₁ = (.ok (.copied e.asRegular), s₁)
  stops : ∀ e s₁ error s₂, Reaches apply a.entries s e s₁ →
    (e.transform apply).run s₁ = (.error error, s₂) →
      (a.transform apply).run s = (.error error, s₂)
  report : ∀ out report s', (a.transform apply).run s = (.ok (out, report), s') →
    (report.transformed ++ report.dropped ++ report.undecodable).Perm
        ((a.entries.filter fun e => ¬ e.Spared descriptor).map Entry.name) ∧
      report.copied = a.entries.countP fun e => e.Spared descriptor

namespace Archive

section Runs

variable {τ : Type} (apply : Application (StateM τ)) (a : Archive) (s : τ)

theorem handsOver_mentioned : a.HandsOver Entry.MentionsDescriptor apply s where
  handed e s₁ _ hhanded := by
    rw [← e.className?_eq_none_iff_spared] at hhanded
    obtain ⟨name, hname⟩ := Option.ne_none_iff_exists'.mp hhanded
    exact Entry.handedOver_of_className? hname s₁
  copied e s₁ _ hspared :=
    Entry.transform_of_none (e.className?_eq_none_iff_spared.mpr hspared) s₁
  stops e s₁ error s₂ hreaches h := by
    unfold Archive.transform
    exact run_bind_eq_error.mpr (.inl (hreaches.run_eq_error h))
  report out report s' h := by
    obtain ⟨treated, hrun, hsettled, -, rfl⟩ := (Archive.transform_eq_ok_iff apply).mp h
    have hentries := entry_treatAll apply a.entries s
    have hkind : ∀ t ∈ treated, t.isCopied = decide (t.entry.Spared Entry.MentionsDescriptor) := by
      intro t ht
      rw [Bool.eq_iff_iff, decide_eq_true_iff, ← t.entry.className?_eq_none_iff_spared]
      exact isCopied_of_mem_treatAll apply (by rwa [hrun])
    rw [hrun] at hentries
    unfold Treated.report
    dsimp only
    refine ⟨?_, ?_⟩
    · rw [← List.map_append, ← List.map_append, ← hentries, List.filter_map, List.map_map]
      have hrest : (treated.filter fun t => !t.isCopied) =
          treated.filter ((fun e => decide ¬ e.Spared Entry.MentionsDescriptor) ∘ Treated.entry) :=
        List.filter_congr fun t ht => by simp [hkind t ht]
      rw [← hrest]
      exact (Treated.perm_of_settled hsettled).map _
    · rw [← hentries, List.countP_map]
      exact List.countP_congr fun t ht => by simp [hkind t ht]

/-- Two ways to tell descriptors make no difference where no entry that is reached tells them
apart. -/
theorem HandsOver.congr {descriptor descriptor' : String → Prop} [DecidablePred descriptor]
    [DecidablePred descriptor'] (h : a.HandsOver descriptor apply s)
    (hsame : ∀ e s₁, Reaches apply a.entries s e s₁ →
      (e.Spared descriptor ↔ e.Spared descriptor')) :
    a.HandsOver descriptor' apply s where
  handed e s₁ hreaches hhanded :=
    h.handed e s₁ hreaches (mt (hsame e s₁ hreaches).mp hhanded)
  copied e s₁ hreaches hspared := h.copied e s₁ hreaches ((hsame e s₁ hreaches).mpr hspared)
  stops := h.stops
  report out report s' hrun := by
    obtain ⟨fates, _, hfates, -⟩ := run_bind_eq_ok.mp hrun
    have hkind : ∀ e ∈ a.entries, (e.Spared descriptor ↔ e.Spared descriptor') := by
      intro e he
      obtain ⟨s₁, hreaches⟩ := exists_reaches hfates he
      exact hsame e s₁ hreaches
    have hothers : (a.entries.filter fun e => ¬ e.Spared descriptor) =
        a.entries.filter fun e => ¬ e.Spared descriptor' :=
      List.filter_congr fun e he => decide_eq_decide.mpr (not_congr (hkind e he))
    have hcount : (a.entries.countP fun e => e.Spared descriptor) =
        a.entries.countP fun e => e.Spared descriptor' :=
      List.countP_congr fun e he => by simp [hkind e he]
    rw [← hothers, ← hcount]
    exact h.report out report s' hrun

/-- The difference between the two readings of a path is a class that is taken for a
descriptor. -/
theorem handsOver_named_iff :
    a.HandsOver Entry.NamesDescriptor apply s ↔
      ∀ e s₁, Reaches apply a.entries s e s₁ → e.IsClassFile →
        Entry.MentionsDescriptor e.name → Entry.NamesDescriptor e.name := by
  have hmentioned := handsOver_mentioned apply a s
  constructor
  · intro h e s₁ hreaches hclass hmentions
    by_contra hnames
    have hhanded := h.handed e s₁ hreaches (not_or.mpr ⟨not_not.mpr hclass, hnames⟩)
    rw [hmentioned.copied e s₁ hreaches (.inr hmentions)] at hhanded
    exact hhanded.ne_copied
  · intro h
    refine hmentioned.congr apply a s fun e s₁ hreaches => ?_
    unfold Entry.Spared
    by_cases hclass : e.IsClassFile
    · have hnames := h e s₁ hreaches hclass
      exact or_congr_right ⟨hnames, Entry.NamesDescriptor.mentions⟩
    · simp [hclass]

end Runs

end Archive

/-! ## Chains -/

namespace Chain

variable {σ τ : Type}

theorem isExempt_of_bare {chain : Chain σ} (hsome : chain.transformers ≠ [])
    (hopen : chain.exclusions = none) (name : ClassName) : chain.isExempt name = false := by
  unfold isExempt
  rw [hopen]
  simpa using hsome

/-- A chain with transformers and without exclusions lets no class through unseen. Going over
an archive, a run hands to it every class file whose path does not mention a descriptor. It
hands over every class file that is no descriptor exactly if each class file that it reaches
and whose path mentions a descriptor is one. -/
theorem handsOver_unmentioned (host : Host σ (StateM τ)) (chain : Chain σ)
    (hsome : chain.transformers ≠ []) (hopen : chain.exclusions = none) (a : Archive) (s : τ) :
    (∀ bytes name, chain.applyWith host bytes name =
      Transformer.applyAll host chain.options (.plain name) chain.transformers bytes) ∧
    a.HandsOver Entry.MentionsDescriptor (chain.applyWith host) s ∧
    (a.HandsOver Entry.NamesDescriptor (chain.applyWith host) s ↔
      ∀ e s₁, Reaches (chain.applyWith host) a.entries s e s₁ → e.IsClassFile →
        Entry.MentionsDescriptor e.name → Entry.NamesDescriptor e.name) := by
  refine ⟨fun bytes name => ?_, Archive.handsOver_mentioned _ a s,
    Archive.handsOver_named_iff _ a s⟩
  exact applyWith_of_not_exempt host (isExempt_of_bare hsome hopen name) bytes

/-- A chain of one transformer, which vetoes every class. -/
def vetoing : Chain Unit :=
  .ofTransformers [⟨"veto", false, none, fun _ _ => .finish .drop⟩]

/-- An archive with a descriptor, a class and a page that mentions descriptors. -/
def described : Archive :=
  ⟨"", [storedEntry "module-info.class" [0], storedEntry "A.class" (Class.announcedBy 1),
    storedEntry "module-info.html" [1]]⟩

theorem handsOver_unmentioned_described :
    vetoing.transformers ≠ [] ∧ vetoing.exclusions = none ∧
      described.HandsOver Entry.NamesDescriptor (vetoing.applyWith .alone) () ∧
      ((described.transform (vetoing.applyWith .alone)).run ()).1.map Prod.snd =
        .ok ⟨[], ["A.class"], 2, []⟩ := by
  have hsome : vetoing.transformers ≠ [] := List.cons_ne_nil _ _
  obtain ⟨-, -, hnamed⟩ := handsOver_unmentioned Host.alone vetoing hsome rfl described ()
  refine ⟨hsome, rfl, hnamed.mpr ?_, by decide +kernel⟩
  rintro e s₁ ⟨before, rest, fates, hentries, -⟩
  have he : e ∈ described.entries := by simp [hentries]
  have hall : ∀ e ∈ described.entries, e.IsClassFile →
      Entry.MentionsDescriptor e.name → Entry.NamesDescriptor e.name := by decide +kernel
  exact hall e he

/-- An archive with a class in a folder whose name begins like that of a descriptor. -/
def tooled : Archive :=
  ⟨"", [storedEntry "module-info-tools/Helper.class" (Class.announcedBy 1)]⟩

/-- The class is taken for a descriptor: the chain, which would veto it, never gets to see it,
and it is shipped among the copied entries. -/
theorem tooled_not_handsOver :
    vetoing.transformers ≠ [] ∧ vetoing.exclusions = none ∧
      (tooled.transform (vetoing.applyWith .alone)).run () =
        (.ok (⟨"", tooled.entries.map Entry.asRegular⟩, ⟨[], [], 1, []⟩), ()) ∧
      ¬ tooled.HandsOver Entry.NamesDescriptor (vetoing.applyWith .alone) () := by
  have hrun : (tooled.transform (vetoing.applyWith .alone)).run () =
      (.ok (⟨"", tooled.entries.map Entry.asRegular⟩, ⟨[], [], 1, []⟩), ()) := by
    refine Prod.ext ?_ (Subsingleton.elim _ _)
    decide +kernel
  refine ⟨List.cons_ne_nil _ _, rfl, hrun, ?_⟩
  intro h
  obtain ⟨-, hcopied⟩ := h.report _ _ _ hrun
  have hnone : (tooled.entries.countP fun e => e.Spared Entry.NamesDescriptor) = 0 := by
    decide +kernel
  rw [hnone] at hcopied
  cases hcopied

end Chain

end ClassLoom
