import ClassLoom.Proofs.KeepingNotes
import ClassLoom.Proofs.PassDepth

/-!
# Spelling does not matter

A class has one name that is spelled with dots or with slashes. Whoever asks a service for
something, and whichever transformers ask meanwhile, may choose. Two sequences of operations
that differ in nothing else are replied to alike, and everybody who is called is called on the
same values in the same order (`Session.results_of_alike`).

The relation between the two sides is equality, except for what a transformer says: names may be
spelled otherwise in the loads and requests of a routine, and in those of the transformers that
it registers (`Transformer.Alike`). To compare the calls both sides keep notes, and since
whatever somebody is called on holds names in normal form, the notes are equal together with
the memories beside them. The replies without notes are the same because notes change nothing.
-/

namespace ClassLoom

variable {σ : Type}

/-! ## Other spellings -/

/-- The routines do the same, but they may spell the names of classes differently. -/
inductive Routine.Alike (G : Transformer σ → Transformer σ → Prop) :
    Routine σ → Routine σ → Prop where
  | finish (outcome : Outcome) : Routine.Alike G (.finish outcome) (.finish outcome)
  | load {n o : String} {resume resume' : Except PipelineError Bytes → Routine σ}
      (hname : normalize n = normalize o)
      (h : ∀ result, Routine.Alike G (resume result) (resume' result)) :
      Routine.Alike G (.load n resume) (.load o resume')
  | ask {request request' : Request σ} {resume resume' : Reply → Routine σ}
      (hrequest : Request.Like ⟨Eq, Eq, G⟩ request request')
      (h : ∀ reply, Routine.Alike G (resume reply) (resume' reply)) :
      Routine.Alike G (.ask request resume) (.ask request' resume')
  | fetch {resume resume' : σ → Routine σ}
      (h : ∀ memory, Routine.Alike G (resume memory) (resume' memory)) :
      Routine.Alike G (.fetch resume) (.fetch resume')
  | store (memory : σ) {next next' : Routine σ} (h : Routine.Alike G next next') :
      Routine.Alike G (.store memory next) (.store memory next')

/-- The transformers are the same, but they may spell the names of classes differently when
they load them or send requests, and so may those that they register. -/
inductive Transformer.Alike : Transformer σ → Transformer σ → Prop where
  | intro {t u : Transformer σ} (hname : t.name = u.name)
      (hflag : t.isDelegationExcluded = u.isDelegationExcluded)
      (hremapper : t.remapper = u.remapper)
      (h : ∀ context c, (t.transform context c).Alike Transformer.Alike (u.transform context c)) :
      Transformer.Alike t u

/-- Equal but for spelling. -/
def spelling : Likeness σ σ := ⟨Eq, Eq, Transformer.Alike⟩

mutual

theorem Routine.alike_self (r : Routine σ) : r.Alike Transformer.Alike r := by
  match r with
  | .finish outcome => exact .finish outcome
  | .load name resume => exact .load rfl fun result => (resume result).alike_self
  | .ask request resume => exact .ask request.like_self fun reply => (resume reply).alike_self
  | .fetch resume => exact .fetch fun memory => (resume memory).alike_self
  | .store memory next => exact .store memory next.alike_self

theorem Transformer.alike_self (t : Transformer σ) : t.Alike t := by
  match t with
  | ⟨_, _, _, transform⟩ =>
      exact .intro rfl rfl rfl fun context c => (transform context c).alike_self

theorem Request.like_self (request : Request σ) : Request.Like spelling request request := by
  match request with
  | .register t => exact .register t.alike_self
  | .addSource s => exact .addSource rfl
  | .transformers | .delegated | .state | .exclude _ _ | .excludeDirect _ _
  | .excludeTransformer _ | .beginPhase | .demoted | .prefixes _ | .generation | .restrictions _
  | .unmap _ | .classBytes _ _ | .decodedClass _ _ | .markLoaded _ | .isLoaded _ | .markInvalid _
  | .isInvalid _ | .applyChain _ _ | .holdChain | .applyHeld _ _ | .transformArchive _ _ | .config
  | .describe => constructor <;> rfl

end

theorem Session.like_self (s : Session σ) : s.Like spelling s where
  service :=
    { config := rfl
      options := rfl
      registry := List.forall₂_same.mpr fun t _ => t.alike_self
      exclusions := rfl
      delegation := by
        refine ⟨?_, rfl⟩
        cases s.service.delegation.cached with
        | none => exact .none
        | some _ => exact .some ⟨rfl, List.forall₂_same.mpr fun t _ => t.alike_self⟩
      sources := List.forall₂_same.mpr fun _ _ => rfl
      demoted := rfl }
  memory := rfl
  held := by
    cases s.held with
    | none => exact .none
    | some _ => exact .some (List.forall₂_same.mpr fun t _ => t.alike_self)

/-! ## Notes of what is spelled otherwise -/

/-- Equal but for spelling, and keeping notes. -/
def notedSpelling : Likeness (Noted σ) (Noted σ) where
  memory := Eq
  source := Eq
  transformer t u := ∃ a b, Transformer.Alike a b ∧ t = a.noting ∧ u = b.noting

theorem Request.Like.noting {request request' : Request σ}
    (h : Request.Like spelling request request') :
    Request.Like notedSpelling request.noting request'.noting := by
  cases h with
  | register ht => exact .register ⟨_, _, ht, rfl, rfl⟩
  | addSource hs => exact .addSource (congrArg Source.noting hs)
  | _ => constructor <;> assumption

theorem Routine.Alike.inStep_noting {r r' : Routine σ} (h : r.Alike Transformer.Alike r') :
    r.noting.InStep notedSpelling r'.noting := by
  intro α β S host host' hhost
  induction h with
  | finish outcome => exact tracks_pure rfl
  | load hname _ ih => exact (hhost.load hname).then ih
  | ask hrequest _ ih => exact (hhost.ask (Request.Like.noting hrequest)).then ih
  | fetch _ ih =>
      refine hhost.fetch.bind fun m n hmn => ?_
      obtain rfl : m = n := hmn
      exact ih m.1
  | store memory _ ih =>
      refine hhost.fetch.bind fun m n hmn => ?_
      obtain rfl : m = n := hmn
      exact (hhost.store rfl).then fun _ => ih

theorem notedSpelling_sound : (notedSpelling (σ := σ)).Sound where
  name := by
    rintro _ _ ⟨a, b, ⟨hname, -, -, -⟩, rfl, rfl⟩
    rw [a.name_noting, b.name_noting, hname]
  isDelegationExcluded := by
    rintro _ _ ⟨a, b, ⟨-, hflag, -, -⟩, rfl, rfl⟩
    rw [a.isDelegationExcluded_noting, b.isDelegationExcluded_noting, hflag]
  remapper := by
    rintro _ _ ⟨a, b, ⟨hname, -, hremapper, -⟩, rfl, rfl⟩
    rw [a.remapper_noting, b.remapper_noting, hname, hremapper]
    cases b.remapper with
    | none => exact .none
    | some remap => exact .some fun text => agrees_self _
  transform := by
    rintro _ _ ⟨a, b, ⟨hname, -, -, h⟩, rfl, rfl⟩ context c α β S host host' hhost
    rw [a.transform_noting, b.transform_noting, hname]
    refine hhost.fetch.bind fun m n hmn => ?_
    obtain rfl : m = n := hmn
    exact (hhost.store rfl).then fun _ => (h context c).inStep_noting _ _ _ _ _ hhost
  find := by
    rintro _ _ rfl name
    exact agrees_self _

theorem Operation.Like.noting {op op' : Operation σ} (h : op.Like spelling op') :
    op.noting.Like notedSpelling op'.noting := by
  cases h with
  | ask hrequest => exact .ask hrequest.noting
  | insert bytes hplace hname =>
      refine .insert bytes ?_ hname
      rintro change m _ rfl
      exact Prod.ext (hplace change m.1 m.1 rfl) rfl

theorem forall₂_noting_of_alike {ts us : List (Transformer σ)}
    (h : List.Forall₂ Transformer.Alike ts us) :
    List.Forall₂ notedSpelling.transformer (ts.map Transformer.noting)
      (us.map Transformer.noting) := by
  refine List.rel_map (R := Transformer.Alike) ?_ h
  exact fun a b hab => ⟨a, b, hab, rfl, rfl⟩

theorem Service.Like.noting {s s' : Service σ} (h : s.Like spelling s') :
    s.noting.Like notedSpelling s'.noting where
  config := h.config
  options := h.options
  registry := forall₂_noting_of_alike h.registry
  exclusions := h.exclusions
  delegation := by
    refine ⟨?_, h.delegation.builds⟩
    show Option.Rel _ (s.delegation.cached.map _) (s'.delegation.cached.map _)
    have hcached := h.delegation.cached
    generalize s.delegation.cached = a, s'.delegation.cached = b at hcached
    cases hcached with
    | none => exact .none
    | some hab => exact .some ⟨hab.1, forall₂_noting_of_alike hab.2⟩
  sources := by
    have hsources : s.sources = s'.sources := List.forall₂_eq_eq_eq ▸ h.sources
    show List.Forall₂ _ (s.sources.map _) (s'.sources.map _)
    rw [hsources]
    exact List.forall₂_same.mpr fun _ _ => rfl
  demoted := h.demoted

theorem Session.Like.noting {s s' : Session σ} (h : s.Like spelling s') :
    s.noting.Like notedSpelling s'.noting where
  service := h.service.noting
  memory := congrArg (·, []) h.memory
  held := by
    show Option.Rel _ (s.held.map _) (s'.held.map _)
    have hheld := h.held
    generalize s.held = a, s'.held = b at hheld
    cases hheld with
    | none => exact .none
    | some hts => exact .some (forall₂_noting_of_alike hts)

/-! ## Operations in other spellings -/

namespace Session

theorem notedResults_of_alike {s s' : Session σ} (hs : s.Like spelling s')
    {ops ops' : List (Operation σ)} (hops : List.Forall₂ (Operation.Like spelling) ops ops')
    (depth : Nat) : notedResults depth ops s = notedResults depth ops' s' := by
  have hnoted : List.Forall₂ (Operation.Like notedSpelling) (ops.map Operation.noting)
      (ops'.map Operation.noting) :=
    List.rel_map (R := Operation.Like spelling) (fun _ _ h => h.noting) hops
  have hboth := results_like notedSpelling_sound hs.noting hnoted depth
  unfold notedResults
  generalize results depth _ s.noting = a, results depth _ s'.noting = b at hboth
  cases hboth with
  | none => rfl
  | some hab => exact congrArg some (Prod.ext hab.1 hab.2)

/-- Operations that differ in how they spell names are replied to alike and leave the same
memory, whatever transformers, remappers and sources do with the memory. The calls of these,
in order, are the same as well: that is what the notes tell, and keeping notes changes nothing
else. -/
theorem results_of_alike {s s' : Session σ} (hs : s.Like spelling s')
    {ops ops' : List (Operation σ)} (hops : List.Forall₂ (Operation.Like spelling) ops ops')
    (depth : Nat) :
    results depth ops s = results depth ops' s' ∧
      notedResults depth ops s = notedResults depth ops' s' ∧
      (notedResults depth ops s).map (fun (replies, n) => (replies, n.1)) =
        results depth ops s := by
  have hnoted := notedResults_of_alike hs hops depth
  refine ⟨?_, hnoted, notedResults_map depth ops s⟩
  rw [← notedResults_map, ← notedResults_map, hnoted]

end Session

/-- A source that gives out what is in the memory. -/
def fromMemory : Source ClassStore where
  find name := fun store => (.ok (store.find? name), store)

/-- A transformer that loads a class when it is given another one. -/
def visiting (target : String) : Transformer ClassStore where
  name := "visiting"
  isDelegationExcluded := false
  remapper := some fun name => pure (name ++ "Impl")
  transform context c :=
    if context.transformedName.dotted = "a.B" then .load target fun _ => .finish (.keep c)
    else .finish (.keep c)

theorem visiting_alike {n o : String} (h : normalize n = normalize o) :
    (visiting n).Alike (visiting o) := by
  refine .intro rfl rfl rfl fun context c => ?_
  show (if context.transformedName.dotted = "a.B" then _ else _ : Routine _).Alike _
    (if context.transformedName.dotted = "a.B" then _ else _)
  split
  · exact .load h fun result => .finish _
  · exact .finish _

/-- A class that loads another one is added and loaded, by these spellings of their names. -/
def visit (n o : String) : List (Operation ClassStore) :=
  [.insert id n (Class.announcedBy 1), .insert id o (Class.announcedBy 1),
    .ask (.register (visiting o)), .ask (.exclude .load o), .ask (.restrictions o),
    .ask (.classBytes n true), .ask (.unmap o)]

theorem visit_like {n n' o o' : String} (hn : normalize n = normalize n')
    (ho : normalize o = normalize o') :
    List.Forall₂ (Operation.Like spelling) (visit n o) (visit n' o') := by
  have hplace : ∀ (change : ClassStore → ClassStore) m m', m = m' → id change m = id change m' :=
    fun change _ _ hm => congrArg change hm
  exact .cons (.insert _ hplace hn) (.cons (.insert _ hplace ho)
    (.cons (.ask (.register (visiting_alike ho))) (.cons (.ask (.exclude .load ho))
      (.cons (.ask (.restrictions ho)) (.cons (.ask (.classBytes true hn))
        (.cons (.ask (.unmap ho)) .nil))))))

/-- A service that takes its classes from the memory. -/
def shelving : Session ClassStore where
  service := (Service.new .default).addSource fromMemory
  memory := .empty
  held := none

theorem results_of_alike_visit :
    Session.Like spelling shelving shelving ∧
      List.Forall₂ (Operation.Like spelling) (visit "a/B" "c/D") (visit "a.B" "c.D") ∧
      Session.results 1 (visit "a/B" "c/D") shelving =
        Session.results 1 (visit "a.B" "c.D") shelving ∧
      Session.notedResults 1 (visit "a/B" "c/D") shelving =
        Session.notedResults 1 (visit "a.B" "c.D") shelving ∧
      (Session.notedResults 1 (visit "a/B" "c/D") shelving).map (fun (_, n) => n.2.length) =
        some 8 := by
  have hvisit : List.Forall₂ (Operation.Like spelling) (visit "a/B" "c/D") (visit "a.B" "c.D") :=
    visit_like (by decide) (by decide)
  obtain ⟨hresults, hnotes, -⟩ := Session.results_of_alike shelving.like_self hvisit 1
  exact ⟨shelving.like_self, hvisit, hresults, hnotes, by decide +kernel⟩

end ClassLoom
