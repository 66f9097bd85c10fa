import ClassLoom.Chain
import ClassLoom.Proofs.ArchiveOutcomes
import ClassLoom.Proofs.ClassFileRoundTrip

/-!
# Transforming an archive in place is all or nothing

Between reading a file and replacing it lies everything that can go wrong with its
contents, and none of that touches the folder: the transformers work on a copy, and
the new archive is complete before a temporary file is made for it. So a fault of an
entry leaves the folder alone simply because nothing has been done to it yet. What
has to be shown is that the first fault ends the run, wherever it is
(`mapM_transform_eq_error_iff`), and that the steps of a replacement change one file
when they all succeed and none when one of them is refused (`replace_eq`).

That later entries are not looked at is a statement about what the application is
asked, which its answers do not tell. So it is asked through `noting`, which writes
down every question.
-/

namespace ClassLoom

/-! ## Folders -/

namespace Folder

variable {f : Folder} {name temporary : String} {c : Container}

theorem put_of_fresh (hfresh : temporary ∉ f.items.map Prod.fst) (c : Container) :
    f.put temporary c = ⟨f.items ++ [(temporary, .file c)]⟩ := by
  unfold put
  rw [if_neg hfresh]

theorem write_of_fresh (hfresh : temporary ∉ f.items.map Prod.fst) (c : Container) :
    f.write temporary c = f := by
  unfold write
  congr 1
  conv => rhs; rw [← List.map_id f.items]
  refine List.map_congr_left fun item hitem => if_neg ?_
  intro hname
  exact hfresh (List.mem_map.mpr ⟨item, hitem, hname⟩)

theorem write_put (hfresh : temporary ∉ f.items.map Prod.fst) (c d : Container) :
    (f.put temporary c).write temporary d = f.put temporary d := by
  have hrest := congrArg Folder.items (write_of_fresh hfresh d)
  rw [put_of_fresh hfresh, put_of_fresh hfresh]
  unfold write at hrest ⊢
  dsimp only at hrest
  rw [List.map_append, hrest]
  simp

theorem remove_put (hfresh : temporary ∉ f.items.map Prod.fst) (c : Container) :
    (f.put temporary c).remove temporary = f := by
  have hkeep : f.items.filter (·.1 ≠ temporary) = f.items := by
    refine List.filter_eq_self.mpr fun item hitem => decide_eq_true ?_
    intro hname
    exact hfresh (List.mem_map.mpr ⟨item, hitem, hname⟩)
  rw [put_of_fresh hfresh]
  unfold remove
  rw [List.filter_append, hkeep]
  simp

theorem lookup_eq_none (h : name ∉ f.items.map Prod.fst) : f.items.lookup name = none := by
  rw [List.lookup_eq_none_iff]
  intro item hitem
  rw [bne_iff_ne]
  intro hname
  exact h (List.mem_map.mpr ⟨item, hitem, hname.symm⟩)

theorem read_put (hfresh : temporary ∉ f.items.map Prod.fst) (c : Container) :
    (f.put temporary c).read temporary = .ok c := by
  rw [put_of_fresh hfresh]
  unfold read item?
  rw [List.lookup_append, lookup_eq_none hfresh]
  simp

/-- A temporary file that is renamed over a file leaves nothing but its contents. -/
theorem rename_put (hfresh : temporary ∉ f.items.map Prod.fst)
    (hname : name ∈ f.items.map Prod.fst) (c : Container) :
    (f.put temporary c).rename temporary name = f.write name c := by
  unfold rename
  rw [read_put hfresh, remove_put hfresh]
  exact if_pos hname

theorem item?_put (hfresh : temporary ∉ f.items.map Prod.fst)
    (hname : name ∈ f.items.map Prod.fst) (c : Container) :
    (f.put temporary c).item? name = f.item? name := by
  rw [put_of_fresh hfresh]
  unfold item?
  rw [List.lookup_append]
  cases hlookup : f.items.lookup name with
  | some item => rfl
  | none =>
      obtain ⟨item, hitem, hsame⟩ := List.mem_map.mp hname
      have hne := List.lookup_eq_none_iff.mp hlookup item hitem
      rw [hsame] at hne
      simp at hne

theorem item?_write_of_ne {other : String} (hne : other ≠ name) (c : Container) :
    (f.write name c).item? other = f.item? other := by
  unfold write item?
  dsimp only
  induction f.items with
  | nil => rfl
  | cons item items ih =>
      rw [List.map_cons]
      split
      · next hitem =>
          have hfirst : (other == name) = false := beq_false_of_ne hne
          rw [List.lookup_cons, hfirst, List.lookup_cons, hitem, hfirst]
          exact ih
      · rw [List.lookup_cons, List.lookup_cons, ih]

theorem item?_write_self (hname : name ∈ f.items.map Prod.fst) (c : Container) :
    (f.write name c).item? name = some (.file c) := by
  obtain ⟨items⟩ := f
  unfold write item?
  dsimp only at hname ⊢
  induction items with
  | nil => cases hname
  | cons item items ih =>
      rw [List.map_cons]
      split
      · rw [List.lookup_cons, beq_self_eq_true]
      · next hne =>
          have hfirst : (name == item.1) = false := beq_false_of_ne (Ne.symm hne)
          rw [List.lookup_cons, hfirst]
          rcases List.mem_cons.mp hname with hhead | htail
          · exact absurd hhead.symm hne
          · exact ih htail

theorem names_write (f : Folder) (name : String) (c : Container) :
    (f.write name c).names = f.names := by
  unfold names write
  dsimp only
  rw [List.map_map]
  congr 1
  refine List.map_congr_left fun item _ => ?_
  dsimp only [Function.comp_apply]
  split
  · next hitem => exact hitem.symm
  · rfl

theorem mem_of_read {f : Folder} {name : String} {c : Container} (h : f.read name = .ok c) :
    name ∈ f.items.map Prod.fst := by
  by_contra hnone
  unfold read item? at h
  rw [lookup_eq_none hnone] at h
  cases h

end Folder

/-! ## Replacing a file -/

namespace FileSystem

variable {fs : FileSystem} {what : FileCall} {effect : Folder → Folder} {f : Folder}
  {name temporary : String} {fault : IoFault} {c : Container}

theorem call_of_permitted (h : fs.refuses what = none) :
    fs.call what effect f = .ok () (effect f) := by
  unfold call
  rw [h]

theorem call_of_refused (h : fs.refuses what = some fault) :
    fs.call what effect f = .error fault f := by
  unfold call
  rw [h]

/-- Why a file cannot be replaced: the first step that is refused. -/
def refusal? (fs : FileSystem) : Option IoFault :=
  [FileCall.create, .write, .sync, .rename].findSome? fs.refuses

theorem commit_of_permitted (hfresh : temporary ∉ f.items.map Prod.fst)
    (hname : name ∈ f.items.map Prod.fst) (b c : Container)
    (h : [FileCall.write, .sync, .rename].findSome? fs.refuses = none) :
    fs.commit temporary name c (f.put temporary b) = .ok () (f.write name c) := by
  simp only [List.findSome?_eq_none_iff, List.forall_mem_cons] at h
  obtain ⟨hwrite, hsync, hrename, -⟩ := h
  unfold commit
  rw [bind_of_ok (call_of_permitted hwrite), bind_of_ok (call_of_permitted hsync),
    call_of_permitted hrename, id_eq, Folder.write_put hfresh, Folder.rename_put hfresh hname]

/-- Up to the renaming only the temporary file changes. -/
theorem commit_of_refused (name : String) (c : Container)
    (hfresh : temporary ∉ f.items.map Prod.fst) (b : Container)
    (h : [FileCall.write, .sync, .rename].findSome? fs.refuses = some fault) :
    ∃ d, fs.commit temporary name c (f.put temporary b) = .error fault (f.put temporary d) := by
  unfold commit
  -- `d` is what the temporary file holds by then: all of `c` once it has been written
  cases hwrite : fs.refuses .write with
  | some refused =>
      rw [List.findSome?_cons, hwrite] at h
      cases h
      exact ⟨b, bind_of_error (call_of_refused hwrite)⟩
  | none =>
      rw [bind_of_ok (call_of_permitted hwrite), Folder.write_put hfresh]
      cases hsync : fs.refuses .sync with
      | some refused =>
          rw [List.findSome?_cons, hwrite, List.findSome?_cons, hsync] at h
          cases h
          exact ⟨c, bind_of_error (call_of_refused hsync)⟩
      | none =>
          rw [bind_of_ok (call_of_permitted hsync)]
          rw [List.findSome?_cons, hwrite, List.findSome?_cons, hsync,
            List.findSome?_cons] at h
          cases hrename : fs.refuses .rename with
          | some refused =>
              rw [hrename] at h
              cases h
              exact ⟨c, call_of_refused hrename⟩
          | none =>
              rw [hrename] at h
              cases h

theorem discard_put (hfresh : temporary ∉ f.items.map Prod.fst) (c : Container) :
    fs.discard temporary (f.put temporary c) =
      .ok () (if fs.refuses .remove = none then f else f.put temporary c) := by
  show EStateM.tryCatch (fs.call .remove (·.remove temporary)) _ (f.put temporary c) = _
  unfold EStateM.tryCatch
  cases hremove : fs.refuses .remove with
  | some refused => rw [call_of_refused hremove]; rfl
  | none => rw [call_of_permitted hremove, Folder.remove_put hfresh]; rfl

theorem replace_eq (fs : FileSystem) (name : String) (c : Container) (f : Folder) :
    fs.replace name c f =
      (fs.call .create (·.put (fs.temporary f) (.raw [])) >>= fun _ =>
        tryCatch (fs.commit (fs.temporary f) name c) fun fault => do
          fs.discard (fs.temporary f)
          throw fault) f := rfl

theorem replace_of_permitted (hname : name ∈ f.items.map Prod.fst) (c : Container)
    (h : fs.refusal? = none) : fs.replace name c f = .ok () (f.write name c) := by
  unfold refusal? at h
  rw [List.findSome?_cons] at h
  cases hcreate : fs.refuses .create with
  | some refused =>
      rw [hcreate] at h
      cases h
  | none =>
      rw [hcreate] at h
      rw [replace_eq, bind_of_ok (call_of_permitted hcreate)]
      show EStateM.tryCatch (fs.commit (fs.temporary f) name c) _ _ = _
      unfold EStateM.tryCatch
      rw [commit_of_permitted (fs.temporary_fresh f) hname _ c h]

/-- A replacement that is refused leaves the folder as it was. The one thing that can
be left behind is the temporary file, where its removal is refused as well. -/
theorem replace_of_refused (name : String) (c : Container) (f : Folder)
    (h : fs.refusal? = some fault) :
    ∃ f', fs.replace name c f = .error fault f' ∧
      (f' = f ∨ fs.refuses .remove ≠ none ∧ ∃ d, f' = f.put (fs.temporary f) d) := by
  unfold refusal? at h
  rw [List.findSome?_cons] at h
  cases hcreate : fs.refuses .create with
  | some refused =>
      rw [hcreate] at h
      cases h
      refine ⟨f, ?_, .inl rfl⟩
      rw [replace_eq, bind_of_error (call_of_refused hcreate)]
  | none =>
      rw [hcreate] at h
      have hfresh := fs.temporary_fresh f
      obtain ⟨d, hcommit⟩ := commit_of_refused name c hfresh (.raw []) h
      refine ⟨if fs.refuses .remove = none then f else f.put (fs.temporary f) d, ?_, ?_⟩
      · rw [replace_eq, bind_of_ok (call_of_permitted hcreate)]
        show EStateM.tryCatch (fs.commit (fs.temporary f) name c) _ _ = _
        unfold EStateM.tryCatch
        rw [hcommit]
        exact bind_of_ok (discard_put hfresh d)
      · split
        · exact .inl rfl
        · next hremove => exact .inr ⟨hremove, d, rfl⟩

theorem readFile_of_permitted (hpermit : fs.refuses .read = none) (h : f.read name = .ok c) :
    fs.readFile name f = .ok c f := by
  have hget : (get : FileM Folder) f = .ok f f := rfl
  unfold readFile
  rw [bind_of_ok (call_of_permitted hpermit), id_eq, bind_of_ok hget, h]
  rfl

/-- Reading a file changes nothing, and what is read is there. -/
theorem readFile_cases (fs : FileSystem) (name : String) (f : Folder) :
    (∃ fault, fs.readFile name f = .error fault f) ∨
      ∃ c, fs.readFile name f = .ok c f ∧ f.read name = .ok c := by
  cases hread : fs.refuses .read with
  | some fault => exact .inl ⟨fault, bind_of_error (call_of_refused hread)⟩
  | none =>
      cases hcontents : f.read name with
      | ok contents => exact .inr ⟨contents, readFile_of_permitted hread hcontents, rfl⟩
      | error fault =>
          have hget : (get : FileM Folder) f = .ok f f := rfl
          refine .inl ⟨fault, ?_⟩
          unfold readFile
          rw [bind_of_ok (call_of_permitted hread), id_eq, bind_of_ok hget, hcontents]
          rfl

theorem mem_of_readFile {f' : Folder} (h : fs.readFile name f = .ok c f') :
    name ∈ f.items.map Prod.fst := by
  rcases fs.readFile_cases name f with ⟨_, hfails⟩ | ⟨_, _, hcontents⟩
  · rw [hfails] at h
    cases h
  · exact Folder.mem_of_read hcontents

end FileSystem

/-! ## The first fault -/

/-- What an application is asked about an entry: nothing if the entry is none of its
business, or if there is no data to ask it about. -/
def Entry.question? (e : Entry) : Option (Bytes × ClassName) :=
  if e.intact then e.className?.map (e.data, ·) else none

section Faults

variable {τ : Type} {apply : Application (StateM τ)}

/-- An entry that nothing can be made of, with the error and the state after it. -/
inductive Entry.Stuck (apply : Application (StateM τ)) (e : Entry) (s : τ) :
    PipelineError → τ → Prop
  /-- Its data is damaged, and the application is not asked. -/
  | damaged {name : ClassName} (hname : e.className? = some name) (hdata : e.intact = false) :
      Entry.Stuck apply e s (.io .badChecksum) s
  /-- The application failed, and there is a class in the data. -/
  | refused {name : ClassName} {error : PipelineError} {s' : τ}
      (hname : e.className? = some name) (hdata : e.intact = true)
      (happlied : apply e.data name s = (.error error, s'))
      (hdecode : error.isDecodeFailure = false) :
      Entry.Stuck apply e s error s'

theorem ran_eq_error_iff {ε α : Type} {x : Except ε α} {e : ε} {s s' : τ} :
    ((x, s) : Id (Except ε α × τ)) = (.error e, s') ↔ x = .error e ∧ s = s' := by
  show ((x, s) : Except ε α × τ) = (.error e, s') ↔ _
  rw [Prod.mk.injEq]

theorem Entry.transform_eq_error_iff {e : Entry} {error : PipelineError} {s s' : τ} :
    (e.transform apply).run s = (.error error, s') ↔ e.Stuck apply s error s' := by
  constructor
  · intro h
    cases hname : e.className? with
    | none =>
        rw [Entry.transform_of_none hname] at h
        cases h
    | some name =>
        cases hdata : e.intact with
        | false =>
            rw [Entry.transform_of_damaged hname hdata] at h
            cases h
            exact .damaged hname hdata
        | true =>
            rw [Entry.transform_of_intact hname hdata, ran_eq_error_iff] at h
            obtain ⟨hvalue, hs⟩ := h
            match hresult : (apply e.data name s).1 with
            | .ok (some output) | .ok none =>
                rw [hresult] at hvalue
                cases hvalue
            | .error found =>
                rw [hresult] at hvalue
                dsimp only at hvalue
                split at hvalue
                · cases hvalue
                · next hdecode =>
                    cases hvalue
                    refine .refused hname hdata (Prod.ext hresult hs) ?_
                    simpa using hdecode
  · intro h
    cases h with
    | damaged hname hdata => exact Entry.transform_of_damaged hname hdata s
    | refused hname hdata happlied hdecode =>
        rw [Entry.transform_of_intact hname hdata, happlied]
        dsimp only
        rw [if_neg (by simp [hdecode])]

/-- A run over entries fails at the first of them that nothing can be made of, with
the error of that one, and ends there. -/
theorem mapM_transform_eq_error_iff {entries : List Entry} {error : PipelineError} {s s' : τ} :
    (entries.mapM (Entry.transform apply)).run s = (.error error, s') ↔
      ∃ before e after treated s₁, entries = before ++ e :: after ∧
        treatAll apply before s = (treated, s₁) ∧ (∀ t ∈ treated, t.IsSettled) ∧
        e.Stuck apply s₁ error s' := by
  induction entries generalizing s with
  | nil =>
      rw [List.mapM_nil]
      constructor
      · intro h
        cases h
      · intro h
        obtain ⟨before, e, after, _, _, hentries, _⟩ := h
        simp at hentries
  | cons e es ih =>
      rw [List.mapM_cons]
      rw [run_bind_eq_error]
      constructor
      · intro h
        -- either nothing can be made of `e`, or it is dealt with and the rest goes wrong
        rcases h with hfirst | ⟨fate, s₁, hfirst, h⟩
        · exact ⟨[], e, es, [], s, rfl, rfl, by simp, Entry.transform_eq_error_iff.mp hfirst⟩
        · rcases run_bind_eq_error.mp h with hrest | ⟨_, _, _, hpure⟩
          · obtain ⟨hsettled, _, hs₁⟩ := Entry.transform_eq_ok_iff.mp hfirst
            obtain ⟨before, e', after, treated, s₂, rfl, hbefore, hall, hstuck⟩ := ih.mp hrest
            refine ⟨e :: before, e', after, (e.treat apply s).1 :: treated, s₂, rfl, ?_, ?_,
              hstuck⟩
            · rw [treatAll_cons, hs₁, hbefore]
            · exact List.forall_mem_cons.mpr ⟨hsettled, hall⟩
          · exact absurd hpure run_pure_ne_error
      · intro h
        obtain ⟨before, e', after, treated, s₂, hentries, hbefore, hall, hstuck⟩ := h
        cases before with
        | nil =>
            rw [treatAll_nil] at hbefore
            cases hbefore
            cases hentries
            exact .inl (Entry.transform_eq_error_iff.mpr hstuck)
        | cons first before =>
            rw [treatAll_cons] at hbefore
            cases hbefore
            cases hentries
            obtain ⟨hsettled, hall⟩ := List.forall_mem_cons.mp hall
            refine .inr ⟨_, _, Entry.transform_eq_ok_iff.mpr ⟨hsettled, rfl, rfl⟩, ?_⟩
            refine run_bind_eq_error.mpr (.inl (ih.mpr ?_))
            exact ⟨before, e', after, _, _, rfl, rfl, hall, hstuck⟩

theorem Container.transform_eq_error_iff {c : Container} {error : PipelineError} {s s' : τ} :
    (c.transform apply).run s = (.error error, s') ↔
      (∃ fault, c.open? = .error fault ∧ error = .archive fault ∧ s' = s) ∨
      ∃ a before e after treated s₁, c.open? = .ok a ∧ a.entries = before ++ e :: after ∧
        treatAll apply before s = (treated, s₁) ∧ (∀ t ∈ treated, t.IsSettled) ∧
        e.Stuck apply s₁ error s' := by
  unfold Container.transform
  cases c.open? with
  | error fault =>
      constructor
      · intro h
        cases h
        exact .inl ⟨fault, rfl, rfl, rfl⟩
      · intro h
        rcases h with ⟨fault', hfault, rfl, rfl⟩ | ⟨_, _, _, _, _, _, hopen, _⟩
        · cases hfault
          rfl
        · cases hopen
  | ok a =>
      dsimp only
      unfold Archive.transform
      have hend : ¬ ∃ fates t, (a.entries.mapM (Entry.transform apply)).run s = (.ok fates, t) ∧
          (pure (Archive.ofFates fates, Report.ofFates fates) :
            ExceptT PipelineError (StateM τ) (Archive × Report)).run t = (.error error, s') := by
        intro h
        obtain ⟨_, _, _, hpure⟩ := h
        exact run_pure_ne_error hpure
      rw [run_bind_eq_error, or_iff_left hend, mapM_transform_eq_error_iff]
      simp

/-! ## What an application is asked -/

/-- The application, with a note of each question that it is asked. -/
def noting (apply : Application (StateM τ)) :
    Application (StateM (τ × List (Bytes × ClassName))) :=
  fun bytes name noted =>
    ((apply bytes name noted.1).1, (apply bytes name noted.1).2, noted.2 ++ [(bytes, name)])

variable {s s' : τ} {asked : List (Bytes × ClassName)}

theorem Entry.question?_of_some {e : Entry} {name : ClassName} (hname : e.className? = some name)
    (hdata : e.intact = true) : e.question? = some (e.data, name) := by
  unfold Entry.question?
  rw [hname, hdata]
  rfl

theorem Entry.question?_of_damaged {e : Entry} (hdata : e.intact = false) :
    e.question? = none := by
  unfold Entry.question?
  rw [hdata]
  rfl

theorem Entry.question?_of_none {e : Entry} (hname : e.className? = none) :
    e.question? = none := by
  unfold Entry.question?
  rw [hname]
  simp

theorem Entry.treat_noting {e : Entry} (h : (e.treat apply s).1.IsSettled) :
    e.treat (noting apply) (s, asked) =
      ((e.treat apply s).1, (e.treat apply s).2, asked ++ e.question?.toList) := by
  cases hname : e.className? with
  | none =>
      rw [Entry.treat_of_none hname, Entry.treat_of_none hname, Entry.question?_of_none hname]
      simp
  | some name =>
      rw [Entry.treat_of_some hname] at h
      have hdata : e.intact = true := by
        rcases h with hnone | ⟨hdata, _⟩
        · cases hnone
        · exact hdata
      rw [Entry.treat_of_some hname, Entry.treat_of_some hname,
        Entry.question?_of_some hname hdata]
      rfl

/-- As long as every answer is settled, the questions are those of the entries. -/
theorem treatAll_noting {es : List Entry} (h : ∀ t ∈ (treatAll apply es s).1, t.IsSettled) :
    treatAll (noting apply) es (s, asked) =
      ((treatAll apply es s).1, (treatAll apply es s).2,
        asked ++ es.filterMap Entry.question?) := by
  induction es generalizing s asked with
  | nil => simp [treatAll_nil]
  | cons e es ih =>
      rw [treatAll_cons] at h
      obtain ⟨hfirst, hrest⟩ := List.forall_mem_cons.mp h
      rw [treatAll_cons, treatAll_cons, Entry.treat_noting hfirst, ih hrest]
      cases hquestion : e.question? with
      | none => simp [hquestion]
      | some question => simp [hquestion]

theorem Entry.Stuck.noting {e : Entry} {error : PipelineError} (h : e.Stuck apply s error s')
    (asked : List (Bytes × ClassName)) :
    e.Stuck (noting apply) (s, asked) error (s', asked ++ e.question?.toList) := by
  cases h with
  | damaged hname hdata =>
      rw [Entry.question?_of_damaged hdata, Option.toList_none, List.append_nil]
      exact .damaged hname hdata
  | refused hname hdata happlied hdecode =>
      rw [Entry.question?_of_some hname hdata]
      refine .refused hname hdata ?_ hdecode
      show ((apply e.data _ s).1, (apply e.data _ s).2, _) = _
      rw [happlied]
      rfl

/-! ## The file and the folder -/

namespace Folder

/-- Transforming the archive in a file stops before the new archive is complete, with
this error, this state and these questions to the application. -/
inductive Stops (fs : FileSystem) (apply : Application (StateM τ)) (f : Folder) (name : String)
    (s : τ) : PipelineError → τ → List (Bytes × ClassName) → Prop
  /-- The file cannot be read. -/
  | unread {fault : IoFault} (hread : fs.readFile name f = .error fault f) :
      Stops fs apply f name s (.io fault) s []
  /-- The file holds no archive. -/
  | noArchive {contents : Container} {fault : ArchiveFault}
      (hread : fs.readFile name f = .ok contents f) (hopen : contents.open? = .error fault) :
      Stops fs apply f name s (.archive fault) s []
  /-- Nothing can be made of an entry, and all entries before it can be dealt with. -/
  | entry {contents : Container} {a : Archive} {before after : List Entry} {e : Entry}
      {treated : List Treated} {s₁ : τ} {error : PipelineError} {s' : τ}
      (hread : fs.readFile name f = .ok contents f) (hopen : contents.open? = .ok a)
      (hentries : a.entries = before ++ e :: after)
      (hbefore : treatAll apply before s = (treated, s₁))
      (hsettled : ∀ t ∈ treated, t.IsSettled) (hstuck : e.Stuck apply s₁ error s') :
      Stops fs apply f name s error s' ((before ++ [e]).filterMap Entry.question?)

variable {fs : FileSystem} {f : Folder} {name : String} {error : PipelineError}

theorem transformOn_of_unread {fault : IoFault} (hread : fs.readFile name f = .error fault f) :
    f.transformOn fs apply name s = ((.error (.io fault), f), s) := by
  unfold transformOn
  rw [hread]
  rfl

theorem transformOn_of_error {contents : Container} (hread : fs.readFile name f = .ok contents f)
    (h : (contents.transform apply).run s = (.error error, s')) :
    f.transformOn fs apply name s = ((.error error, f), s') := by
  unfold transformOn
  rw [hread]
  dsimp only
  rw [stateM_bind, h]
  rfl

theorem transformOn_of_refused {contents : Container} {out : Archive} {report : Report}
    {fault : IoFault} {f' : Folder} (hread : fs.readFile name f = .ok contents f)
    (h : (contents.transform apply).run s = (.ok (out, report), s'))
    (hreplace : fs.replace name (.archive out) f = .error fault f') :
    f.transformOn fs apply name s = ((.error (.io fault), f'), s') := by
  unfold transformOn
  rw [hread]
  dsimp only
  rw [stateM_bind, h]
  dsimp only
  rw [hreplace]
  rfl

theorem transformOn_of_permitted {contents : Container} {out : Archive} {report : Report}
    {f' : Folder} (hread : fs.readFile name f = .ok contents f)
    (h : (contents.transform apply).run s = (.ok (out, report), s'))
    (hreplace : fs.replace name (.archive out) f = .ok () f') :
    f.transformOn fs apply name s = ((.ok report, f'), s') := by
  unfold transformOn
  rw [hread]
  dsimp only
  rw [stateM_bind, h]
  dsimp only
  rw [hreplace]
  rfl

theorem Stops.transformOn (h : f.Stops fs apply name s error s' asked) :
    f.transformOn fs apply name s = ((.error error, f), s') := by
  cases h with
  | unread hread => exact transformOn_of_unread hread
  | noArchive hread hopen =>
      refine transformOn_of_error hread (Container.transform_eq_error_iff.mpr (.inl ?_))
      exact ⟨_, hopen, rfl, rfl⟩
  | entry hread hopen hentries hbefore hsettled hstuck =>
      refine transformOn_of_error hread (Container.transform_eq_error_iff.mpr (.inr ?_))
      exact ⟨_, _, _, _, _, _, hopen, hentries, hbefore, hsettled, hstuck⟩

theorem Stops.noting (h : f.Stops fs apply name s error s' asked) :
    f.Stops fs (noting apply) name (s, []) error (s', asked) asked := by
  cases h with
  | unread hread => exact .unread hread
  | noArchive hread hopen => exact .noArchive hread hopen
  | @entry contents a before after e treated s₁ _ _ hread hopen hentries hbefore hsettled
      hstuck =>
      have htreated : (treatAll apply before s).1 = treated := by rw [hbefore]
      have hnoted : treatAll (ClassLoom.noting apply) before (s, []) =
          (treated, s₁, before.filterMap Entry.question?) := by
        rw [treatAll_noting (by rwa [htreated]), hbefore]
        rfl
      have hlast : (before ++ [e]).filterMap Entry.question? =
          before.filterMap Entry.question? ++ e.question?.toList := by
        rw [List.filterMap_append]
        cases hquestion : e.question? with
        | none => simp [hquestion]
        | some question => simp [hquestion]
      have hstuck := hstuck.noting (before.filterMap Entry.question?)
      rw [← hlast] at hstuck
      exact .entry hread hopen hentries hnoted hsettled hstuck

/-- The run is one of three: it stops, or the replacement is refused, or it goes
through. -/
theorem transformOn_cases (fs : FileSystem) (apply : Application (StateM τ)) (f : Folder)
    (name : String) (s : τ) :
    (∃ error s' asked, f.Stops fs apply name s error s' asked) ∨
      ∃ contents out report s', fs.readFile name f = .ok contents f ∧
        name ∈ f.items.map Prod.fst ∧
        (contents.transform apply).run s = (.ok (out, report), s') ∧
        ((∃ fault f', fs.refusal? = some fault ∧
            f.transformOn fs apply name s = ((.error (.io fault), f'), s') ∧
            (f' = f ∨ fs.refuses .remove ≠ none ∧ ∃ d, f' = f.put (fs.temporary f) d)) ∨
          fs.refusal? = none ∧
            f.transformOn fs apply name s = ((.ok report, f.write name (.archive out)), s')) := by
  rcases fs.readFile_cases name f with ⟨fault, hread⟩ | ⟨contents, hread, _⟩
  · exact .inl ⟨_, _, _, .unread hread⟩
  obtain ⟨result, s', hrun⟩ : ∃ result s', (contents.transform apply).run s = (result, s') :=
    ⟨_, _, rfl⟩
  cases result with
  | error error =>
      refine .inl ?_
      rcases Container.transform_eq_error_iff.mp hrun with
        ⟨fault, hopen, rfl, rfl⟩ | ⟨a, before, e, after, treated, s₁, hopen, hentries, hbefore,
          hsettled, hstuck⟩
      · exact ⟨_, _, _, .noArchive hread hopen⟩
      · exact ⟨_, _, _, .entry hread hopen hentries hbefore hsettled hstuck⟩
  | ok r =>
      obtain ⟨out, report⟩ := r
      have hname := FileSystem.mem_of_readFile hread
      refine .inr ⟨contents, out, report, s', hread, hname, hrun, ?_⟩
      cases hrefusal : fs.refusal? with
      | none =>
          have hreplace := FileSystem.replace_of_permitted hname (.archive out) hrefusal
          exact .inr ⟨rfl, transformOn_of_permitted hread hrun hreplace⟩
      | some fault =>
          obtain ⟨f', hreplace, hkept⟩ :=
            FileSystem.replace_of_refused name (.archive out) f hrefusal
          exact .inl ⟨fault, f', rfl, transformOn_of_refused hread hrun hreplace, hkept⟩

theorem transformOn_eq_error {f' : Folder}
    (h : f.transformOn fs apply name s = ((.error error, f'), s')) :
    (f' = f ∧ ∃ asked, f.Stops fs apply name s error s' asked) ∨
      ∃ contents out report fault, fs.readFile name f = .ok contents f ∧
        (contents.transform apply).run s = (.ok (out, report), s') ∧
        fs.refusal? = some fault ∧ error = .io fault ∧
        (fs.refuses .remove = none → f' = f) ∧
        ∀ other ∈ f.items.map Prod.fst, f'.item? other = f.item? other := by
  rcases transformOn_cases fs apply f name s with
    ⟨_, _, asked, hstops⟩ | ⟨contents, out, report, _, hread, _, hrun, hends⟩
  · rw [hstops.transformOn] at h
    cases h
    exact .inl ⟨rfl, asked, hstops⟩
  rcases hends with ⟨fault, f₁, hrefusal, hresult, hkept⟩ | ⟨_, hresult⟩
  · rw [hresult] at h
    cases h
    refine .inr ⟨contents, out, report, fault, hread, hrun, hrefusal, rfl, ?_, ?_⟩
    · intro hremove
      rcases hkept with hsame | ⟨hne, _⟩
      · exact hsame
      · exact absurd hremove hne
    · intro other hother
      rcases hkept with rfl | ⟨_, d, rfl⟩
      · rfl
      · exact item?_put (fs.temporary_fresh f) hother d
  · rw [hresult] at h
    cases h

theorem transformOn_eq_ok_iff {report : Report} {f' : Folder} :
    f.transformOn fs apply name s = ((.ok report, f'), s') ↔
      ∃ contents out, fs.readFile name f = .ok contents f ∧
        (contents.transform apply).run s = (.ok (out, report), s') ∧ fs.refusal? = none ∧
        f' = f.write name (.archive out) ∧ f'.read name = .ok (.archive out) ∧
        f'.names = f.names ∧ ∀ other, other ≠ name → f'.item? other = f.item? other := by
  constructor
  · intro h
    rcases transformOn_cases fs apply f name s with
      ⟨_, _, _, hstops⟩ | ⟨contents, out, report', _, hread, hname, hrun, hends⟩
    · rw [hstops.transformOn] at h
      cases h
    rcases hends with ⟨_, _, _, hresult, _⟩ | ⟨hrefusal, hresult⟩
    · rw [hresult] at h
      cases h
    · rw [hresult] at h
      cases h
      refine ⟨contents, out, hread, hrun, hrefusal, rfl, ?_, names_write f name _,
        fun other hne => item?_write_of_ne hne _⟩
      unfold read
      rw [item?_write_self hname]
  · intro h
    obtain ⟨contents, out, hread, hrun, hrefusal, rfl, _⟩ := h
    have hname := FileSystem.mem_of_readFile hread
    exact transformOn_of_permitted hread hrun
      (FileSystem.replace_of_permitted hname (.archive out) hrefusal)

/-- An archive in a file is transformed in full or not at all. Where the file cannot be
read, holds no archive, or has an entry that nothing can be made of, the error is that
of the first such entry, later entries are not looked at, and the folder is the one from
before. Otherwise only a file system that refuses a step of the replacement stands in
the way, and it leaves every file as it was. Where nothing does, the file holds the new
archive, the report is the report on it, and no other file is touched. -/
theorem transformOn_all_or_nothing (fs : FileSystem) (apply : Application (StateM τ)) (f : Folder)
    (name : String) (s : τ) :
    (∀ error s' asked, f.Stops fs apply name s error s' asked →
      f.transformOn fs apply name s = ((.error error, f), s') ∧
      f.transformOn fs (noting apply) name (s, []) = ((.error error, f), s', asked)) ∧
    (∀ error f' s', f.transformOn fs apply name s = ((.error error, f'), s') →
      (f' = f ∧ ∃ asked, f.Stops fs apply name s error s' asked) ∨
      ∃ contents out report fault, fs.readFile name f = .ok contents f ∧
        (contents.transform apply).run s = (.ok (out, report), s') ∧
        fs.refusal? = some fault ∧ error = .io fault ∧
        (fs.refuses .remove = none → f' = f) ∧
        ∀ other ∈ f.items.map Prod.fst, f'.item? other = f.item? other) ∧
    (∀ report f' s', f.transformOn fs apply name s = ((.ok report, f'), s') ↔
      ∃ contents out, fs.readFile name f = .ok contents f ∧
        (contents.transform apply).run s = (.ok (out, report), s') ∧ fs.refusal? = none ∧
        f' = f.write name (.archive out) ∧ f'.read name = .ok (.archive out) ∧
        f'.names = f.names ∧ ∀ other, other ≠ name → f'.item? other = f.item? other) := by
  refine ⟨?_, fun error f' s' h => transformOn_eq_error h,
    fun report f' s' => transformOn_eq_ok_iff⟩
  intro error s' asked h
  exact ⟨h.transformOn, h.noting.transformOn⟩

end Folder

end Faults

/-! ## A spoiled archive -/

/-- A chain of one transformer, which fails on every class. -/
def refusing : Chain Unit :=
  .ofTransformers [⟨"refusing", false, none, fun _ _ => .finish (.fail (.failed "no"))⟩]

def storedEntry (name : String) (data : Bytes) : Entry :=
  ⟨name, data, true, .stored, .epoch, Entry.regularFile⟩

/-- An archive of three class files, the first of them unreadable. -/
def mixed : Archive :=
  ⟨"", [storedEntry "A.class" [0], storedEntry "B.class" (Class.announcedBy 1),
    storedEntry "C.class" (Class.announcedBy 1)]⟩

def shelf : Folder :=
  ⟨[("app.jar", .file (.archive mixed)), ("notes", .file (.raw [1]))]⟩

theorem Folder.transformOn_all_or_nothing_shelf :
    shelf.transformOn .willing (noting (refusing.applyWith .alone)) "app.jar" ((), []) =
      ((.error (.transform "refusing" "B" (.failed "no")), shelf), (),
        [([0], ClassName.of "A"), (Class.announcedBy 1, ClassName.of "B")]) := by
  have hread : FileSystem.willing.readFile "app.jar" shelf = .ok (.archive mixed) shelf :=
    FileSystem.readFile_of_permitted rfl (by decide +kernel)
  have hfirst : ([storedEntry "A.class" [0]].mapM
      (Entry.transform (refusing.applyWith .alone))).run () =
        (.ok [.undecodable (storedEntry "A.class" [0]).asRegular], ()) := by
    refine Prod.ext ?_ (Subsingleton.elim _ _)
    decide +kernel
  have hsecond : refusing.applyWith .alone (Class.announcedBy 1) (ClassName.of "B") () =
      (.error (.transform "refusing" "B" (.failed "no")), ()) := by
    refine Prod.ext ?_ (Subsingleton.elim _ _)
    decide +kernel
  have hname : (storedEntry "B.class" (Class.announcedBy 1)).className? =
      some (ClassName.of "B") := by decide +kernel
  have hstuck : (storedEntry "B.class" (Class.announcedBy 1)).Stuck (refusing.applyWith .alone) ()
      (.transform "refusing" "B" (.failed "no")) () := .refused hname rfl hsecond rfl
  have hentries : mixed.entries = [storedEntry "A.class" [0]] ++
      storedEntry "B.class" (Class.announcedBy 1) ::
        [storedEntry "C.class" (Class.announcedBy 1)] := rfl
  obtain ⟨hsettled, _, _⟩ := mapM_transform_eq_ok_iff.mp hfirst
  obtain ⟨treated, s₁, hbefore⟩ : ∃ treated s₁, treatAll (refusing.applyWith .alone)
      [storedEntry "A.class" [0]] () = (treated, s₁) := ⟨_, _, rfl⟩
  rw [hbefore] at hsettled
  have hstops := Folder.Stops.entry hread rfl hentries hbefore hsettled hstuck
  have hasked : ([storedEntry "A.class" [0]] ++
      [storedEntry "B.class" (Class.announcedBy 1)]).filterMap Entry.question? =
        [([0], ClassName.of "A"), (Class.announcedBy 1, ClassName.of "B")] := by decide +kernel
  rw [hasked] at hstops
  exact ((Folder.transformOn_all_or_nothing _ _ _ _ _).1 _ _ _ hstops).2

end ClassLoom
