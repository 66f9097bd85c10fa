import ClassLoom.Proofs.KeepingNotes

/-!
# What a raw lookup asks for

The bytes of a class as a source has them depend on two things: on the name under which the
class is stored, which the last transformer with a remapper decides, and on the sources, which
are asked one after the other, first for that name and then for the name that was asked for.
Asking stops at the first answer that is not a miss, and an error is such an answer.

Every question may change the memory that remappers and sources share, so it matters which of
them are asked. `Answered` follows the memory through the questions that were asked, and
`Decides` says how these, with their answers, come out of all questions that there are. That
nobody else is called shows in the notes of a service that keeps notes: they hold the remapper
and the sources that were asked, and no transformer.
-/

namespace ClassLoom

variable {σ : Type}

/-! ## Questions and answers -/

/-- Questions that were asked one after the other, each with the memory that the one before it
left, were answered like this. -/
inductive Answered : σ → List (Question σ × SourceAnswer) → σ → Prop
  | nil {m : σ} : Answered m [] m
  | cons {q : Question σ} {answer : SourceAnswer} {asked : List (Question σ × SourceAnswer)}
      {m m' m'' : σ} (hfind : q.source.find q.name m = (answer, m'))
      (hrest : Answered m' asked m'') : Answered m ((q, answer) :: asked) m''

/-- The question was answered with a miss. -/
def Question.missed (q : Question σ) : Question σ × SourceAnswer :=
  (q, .ok none)

/-- Of the given questions these were asked, and so a lookup of the class `t` came to this. The
questions before the last one that was asked were all answered with a miss. -/
inductive Decides (t : ClassName) : List (Question σ) → List (Question σ × SourceAnswer) →
    Except PipelineError Bytes → Prop
  | hit (before : List (Question σ)) (q : Question σ) (after : List (Question σ))
      (bytes : Bytes) : Decides t (before ++ q :: after)
        (before.map Question.missed ++ [(q, .ok (some bytes))]) (.ok bytes)
  | fault (before : List (Question σ)) (q : Question σ) (after : List (Question σ))
      (cause : IoFault) : Decides t (before ++ q :: after)
        (before.map Question.missed ++ [(q, .error cause)]) (.error (.io cause))
  | nowhere (all : List (Question σ)) :
      Decides t all (all.map Question.missed) (.error (.notFound t.dotted))

section Questions

variable {t : ClassName} {questions : List (Question σ)}
  {asked : List (Question σ × SourceAnswer)} {result : Except PipelineError Bytes}

theorem Decides.missed (q : Question σ) (h : Decides t questions asked result) :
    Decides t (q :: questions) (q.missed :: asked) result := by
  cases h with
  | hit before q' after bytes => exact .hit (q :: before) q' after bytes
  | fault before q' after cause => exact .fault (q :: before) q' after cause
  | nowhere => exact .nowhere (q :: questions)

theorem Decides.notFound_iff (h : Decides t questions asked result) :
    result = .error (.notFound t.dotted) ↔ asked = questions.map Question.missed := by
  have hlast : ∀ (before : List (Question σ)) (q : Question σ) (after : List (Question σ))
      (answer : SourceAnswer), answer ≠ .ok none →
        before.map Question.missed ++ [(q, answer)] ≠
          (before ++ q :: after).map Question.missed := by
    intro before q after answer hanswer hsame
    rw [List.map_append, List.append_cancel_left_eq, List.map_cons] at hsame
    injection hsame with hsame _
    exact hanswer (congrArg Prod.snd hsame)
  cases h with
  | hit before q after bytes => simpa using hlast before q after _ (by simp)
  | fault before q after cause => simpa using hlast before q after _ (by simp)
  | nowhere => simp

/-- What the answer to the last question means for a lookup of the class `t`. -/
def lookupResult (t : ClassName) : SourceAnswer → Except PipelineError Bytes
  | .ok (some bytes) => .ok bytes
  | .ok none => .error (.notFound t.dotted)
  | .error cause => .error (.io cause)

/-- The question, to a source that keeps notes. -/
def Question.noting (q : Question σ) : Question (Noted σ) :=
  ⟨q.source.noting, q.name⟩

/-- What a source notes when it is asked. -/
def Question.contact (q : Question σ) : Contact σ :=
  .source q.source q.name

theorem find_noting {q : Question σ} {answer : SourceAnswer} {m m' : σ}
    (hfind : q.source.find q.name m = (answer, m')) (notes : List (Contact σ)) :
    q.noting.source.find q.noting.name (m, notes) = (answer, m', notes ++ [q.contact]) := by
  show (besideNotes (q.source.find q.name)) (m, notes ++ [q.contact]) = _
  unfold besideNotes
  rw [hfind]

theorem firstAnswer_of_miss {q : Question σ} {m m' : σ}
    (hfind : q.source.find q.name m = (.ok none, m')) (questions : List (Question σ)) :
    Source.firstAnswer (q :: questions) m = Source.firstAnswer questions m' := by
  unfold Source.firstAnswer
  rw [stateM_bind, hfind]
  cases questions with
  | nil => rfl
  | cons _ _ => rfl

theorem firstAnswer_of_ne_miss {q : Question σ} {answer : SourceAnswer} {m m' : σ}
    (hfind : q.source.find q.name m = (answer, m')) (hne : answer ≠ .ok none)
    (questions : List (Question σ)) :
    Source.firstAnswer (q :: questions) m = (answer, m') := by
  unfold Source.firstAnswer
  rw [stateM_bind, hfind]
  cases answer with
  | error cause => rfl
  | ok found =>
      cases found with
      | none => exact absurd rfl hne
      | some bytes => rfl

/-- Asking questions until one is not answered with a miss, with notes and without. -/
theorem firstAnswer_decides (t : ClassName) (questions : List (Question σ)) (m : σ) :
    ∃ asked answer m', Source.firstAnswer questions m = (answer, m') ∧ Answered m asked m' ∧
      Decides t questions asked (lookupResult t answer) ∧
      ∀ notes, Source.firstAnswer (questions.map Question.noting) (m, notes) =
        (answer, m', notes ++ asked.map fun a => a.1.contact) := by
  induction questions generalizing m with
  | nil =>
      refine ⟨[], .ok none, m, rfl, .nil, .nowhere [], fun notes => ?_⟩
      rw [List.map_nil, List.map_nil, List.append_nil]
      rfl
  | cons q questions ih =>
      obtain ⟨answer, m', hfind⟩ : ∃ answer m', q.source.find q.name m = (answer, m') :=
        ⟨_, _, rfl⟩
      by_cases hmiss : answer = .ok none
      · subst hmiss
        obtain ⟨asked, answer, m'', hfirst, hanswered, hdecides, hnotes⟩ := ih m'
        refine ⟨q.missed :: asked, answer, m'', (firstAnswer_of_miss hfind questions).trans hfirst,
          .cons hfind hanswered, hdecides.missed q, fun notes => ?_⟩
        rw [List.map_cons, firstAnswer_of_miss (find_noting hfind notes), hnotes]
        simp [Question.missed]
      · refine ⟨[(q, answer)], answer, m', firstAnswer_of_ne_miss hfind hmiss questions,
          .cons hfind .nil, ?_, fun notes => ?_⟩
        · match answer with
          | .ok none => exact absurd rfl hmiss
          | .ok (some bytes) => exact .hit [] q questions bytes
          | .error cause => exact .fault [] q questions cause
        · rw [List.map_cons, firstAnswer_of_ne_miss (find_noting hfind notes) hmiss]
          rfl

end Questions

/-! ## The stored name -/

/-- The class `t` is stored as `r`: that is what the last registered transformer with a remapper
makes of its dotted spelling, or `t` itself if there is no such transformer. Beside the memories
before and after stands the call of the remapper, if there is one. -/
inductive Service.StoresAs (s : Service σ) (t : ClassName) :
    σ → (r : ClassName) → σ → List (Contact σ) → Prop
  | itself {m : σ} (hnone : ∀ u ∈ s.registry, u.remapper = none) : s.StoresAs t m t m []
  | remapped {before after : List (Transformer σ)} {u : Transformer σ}
      {remap : String → StateM σ String} {text : String} {m m' : σ}
      (hregistry : s.registry = before ++ u :: after) (hremapper : u.remapper = some remap)
      (hlast : ∀ v ∈ after, v.remapper = none) (hremap : remap t.dotted m = (text, m')) :
      s.StoresAs t m (.of text) m' [.remapper u.name t.dotted]

section Unmap

variable {s : Service σ} {t : ClassName}

theorem unmap_of_none (hnone : ∀ u ∈ s.registry, u.remapper = none) (m : σ) :
    s.unmap t m = (t, m) := by
  have hremapper : s.remapper? = none := by
    unfold Service.remapper?
    rw [List.findSome?_eq_none_iff]
    intro u hu
    exact hnone u (List.mem_reverse.mp hu)
  unfold Service.unmap
  rw [hremapper]
  rfl

theorem unmap_of_some {before after : List (Transformer σ)} {u : Transformer σ}
    {remap : String → StateM σ String} {text : String} {m m' : σ}
    (hregistry : s.registry = before ++ u :: after) (hu : u.remapper = some remap)
    (hlast : ∀ v ∈ after, v.remapper = none) (hremap : remap t.dotted m = (text, m')) :
    s.unmap t m = (.of text, m') := by
  have hremapper : s.remapper? = some remap := by
    unfold Service.remapper?
    rw [hregistry, List.findSome?_eq_some_iff]
    refine ⟨after.reverse, u, before.reverse, by simp, hu, ?_⟩
    intro v hv
    exact hlast v (List.mem_reverse.mp hv)
  unfold Service.unmap
  rw [hremapper]
  dsimp only
  rw [stateM_bind, hremap]
  rfl

theorem exists_storesAs (s : Service σ) (t : ClassName) (m : σ) :
    ∃ r m' calls, s.StoresAs t m r m' calls := by
  cases hremapper : s.remapper? with
  | none =>
      unfold Service.remapper? at hremapper
      rw [List.findSome?_eq_none_iff] at hremapper
      exact ⟨t, m, [], .itself fun u hu => hremapper u (List.mem_reverse.mpr hu)⟩
  | some remap =>
      unfold Service.remapper? at hremapper
      obtain ⟨after, u, before, hreverse, hu, hlast⟩ := List.findSome?_eq_some_iff.mp hremapper
      have hregistry : s.registry = before.reverse ++ u :: after.reverse := by
        simpa using congrArg List.reverse hreverse
      refine ⟨_, _, _, .remapped hregistry hu ?_ rfl⟩
      intro v hv
      exact hlast v (List.mem_reverse.mp hv)

/-- The stored name is what a lookup uses, with notes and without. -/
theorem Service.StoresAs.unmap {r : ClassName} {m m' : σ} {calls : List (Contact σ)}
    (h : s.StoresAs t m r m' calls) :
    s.unmap t m = (r, m') ∧ ∀ notes, s.noting.unmap t (m, notes) = (r, m', notes ++ calls) := by
  cases h with
  | itself hnone =>
      refine ⟨unmap_of_none hnone m, fun notes => ?_⟩
      rw [List.append_nil]
      refine unmap_of_none ?_ _
      intro u hu
      obtain ⟨v, hv, rfl⟩ := List.mem_map.mp hu
      rw [Transformer.remapper_noting, hnone v hv]
      rfl
  | @remapped before after u remap text m m' hregistry hu hlast hremap =>
      refine ⟨unmap_of_some hregistry hu hlast hremap, fun notes => ?_⟩
      have hregistry' : s.noting.registry =
          before.map Transformer.noting ++ u.noting :: after.map Transformer.noting := by
        show s.registry.map Transformer.noting = _
        rw [hregistry, List.map_append, List.map_cons]
      have hu' : u.noting.remapper = some (notingRemapper u.name remap) := by
        rw [Transformer.remapper_noting, hu]
        rfl
      refine unmap_of_some hregistry' hu' ?_ ?_
      · intro v' hv'
        obtain ⟨v, hv, rfl⟩ := List.mem_map.mp hv'
        rw [Transformer.remapper_noting, hlast v hv]
        rfl
      · show besideNotes (remap t.dotted) (m, notes ++ [.remapper u.name t.dotted]) = _
        unfold besideNotes
        rw [hremap]

end Unmap

/-! ## The lookup -/

/-- All questions that a lookup of the class `t`, which is stored as `r`, may ask: the sources
are asked in their order for the stored name, and then for the other one if it is another. -/
def Service.inquiry (s : Service σ) (r t : ClassName) : List (Question σ) :=
  s.sources.map (⟨·, r⟩) ++ if r = t then [] else s.sources.map (⟨·, t⟩)

theorem questions_eq_inquiry (s : Service σ) (r t : ClassName) :
    s.questions r t = s.inquiry r t := by
  unfold Service.questions Service.candidates Service.inquiry
  split
  · simp
  · simp

theorem inquiry_noting (s : Service σ) (r t : ClassName) :
    s.noting.inquiry r t = (s.inquiry r t).map Question.noting := by
  unfold Service.inquiry
  show (s.sources.map Source.noting).map _ ++ (if r = t then [] else
    (s.sources.map Source.noting).map _) = _
  rw [List.map_append, List.map_map, List.map_map, List.map_map]
  split
  · rfl
  · rw [List.map_map]
    rfl

theorem rawBytes_of_unmap {s : Service σ} {name : String} {r : ClassName}
    {answer : SourceAnswer} {m m' m'' : σ} (hunmap : s.unmap (ClassName.of name) m = (r, m'))
    (hfirst : Source.firstAnswer (s.inquiry r (ClassName.of name)) m' = (answer, m'')) :
    s.rawBytes name m = (lookupResult (ClassName.of name) answer, m'') := by
  unfold Service.rawBytes Service.find
  rw [stateM_bind, stateM_bind, hunmap, stateM_bind, questions_eq_inquiry, hfirst]
  match answer with
  | .ok (some bytes) | .ok none | .error cause => rfl

namespace Session

/-- A raw lookup of a class asks the sources for the name under which the class is stored and
then, if that is another name, for the one under which it was asked for, up to the first answer
that is not a miss. A hit is what comes out, and so is an error; if all questions that there are
were answered with a miss, and only then, there is no such class. Besides the sources, only the
last remapper is called, no transformer is, and nothing but the memory changes. -/
theorem raw_lookup_asks (s : Session σ) (answer : Request σ → SessionM σ Reply)
    (answer' : Request (Noted σ) → SessionM (Noted σ) Reply) (name : String) :
    let t := ClassName.of name
    ∃ r m calls asked result m',
      s.service.StoresAs t s.memory r m calls ∧
      Answered m asked m' ∧
      Decides t (s.service.inquiry r t) asked result ∧
      (result = .error (.notFound t.dotted) ↔
        asked = (s.service.inquiry r t).map Question.missed) ∧
      classBytes answer name false s = some (result, { s with memory := m' }) ∧
      classBytes answer' name false s.noting =
        some (result,
          { s.noting with memory := (m', calls ++ asked.map fun a => a.1.contact) }) := by
  dsimp only
  obtain ⟨r, m, calls, hstores⟩ := exists_storesAs s.service (ClassName.of name) s.memory
  obtain ⟨asked, found, m', hfirst, hanswered, hdecides, hnotes⟩ :=
    firstAnswer_decides (ClassName.of name) (s.service.inquiry r (ClassName.of name)) m
  obtain ⟨hunmap, hunmap'⟩ := hstores.unmap
  refine ⟨r, m, calls, asked, _, m', hstores, hanswered, hdecides, hdecides.notFound_iff,
    classBytes_raw (rawBytes_of_unmap hunmap hfirst),
    classBytes_raw (rawBytes_of_unmap (hunmap' []) ?_)⟩
  show Source.firstAnswer (s.service.noting.inquiry r (ClassName.of name)) (m, calls) = _
  rw [inquiry_noting, hnotes]

end Session

end ClassLoom
